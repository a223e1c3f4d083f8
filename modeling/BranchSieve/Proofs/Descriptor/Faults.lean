import BranchSieve.Proofs.Descriptor.ByteScan

/-!
# Faults of descriptors

A descriptor that is refused is refused for what stands behind the types that it starts with. The
fault names a byte, with its offset, exactly if the byte starts neither a type nor a dimension; in
every other case the descriptor is cut short: a parenthesis, a type behind dimensions or the end of
a class name is missing. Reading by bytes leads to the same faults and to no access out of place.
-/

namespace BranchSieve.Descriptor

/-- The bytes that start a type or a dimension. -/
def startBytes : List UInt8 := bytes "ZBCSIJFDL[".toList

/-- Behind some types and dimensions stands a byte that starts neither; the offset counts the bytes
    of the descriptor in front of it. -/
def HasStrayByte (descriptor : String) (offset : Nat) (byte : UInt8) : Prop :=
  ∃ types dims rest,
    HasParameters descriptor (encodeTypes types ++ List.replicate dims '[' ++ rest) ∧
    (∀ type ∈ types, type.IsEncodable) ∧ (bytes rest).head? = some byte ∧ byte ∉ startBytes ∧
    offset = (bytes ('(' :: (encodeTypes types ++ List.replicate dims '['))).length

/-- A part of a descriptor is missing. -/
inductive IsCutShort (descriptor : String) : Prop where
  | unopened (other : descriptor.toList.head? ≠ some '(')
  | unclosed (absent : ')' ∉ descriptor.toList)
  /-- There is no type behind some dimensions. -/
  | noType {types : List ArgumentType} {dims : Nat} (some_dim : 0 < dims)
      (encodable : ∀ type ∈ types, type.IsEncodable)
      (parameters : HasParameters descriptor (encodeTypes types ++ List.replicate dims '['))
  /-- The name of a class does not end. -/
  | openName {types : List ArgumentType} {dims : Nat} {name : List Char}
      (encodable : ∀ type ∈ types, type.IsEncodable)
      (parameters : HasParameters descriptor
        (encodeTypes types ++ List.replicate dims '[' ++ 'L' :: name))
      (unended : ';' ∉ name)

variable {descriptor : String} {types : List ArgumentType} {rest : List Char} {c : Char}

/-! ## Characters and parts -/

theorem mem_marks_iff :
    c ∈ "ZBCSIJFDL[".toList ↔ c = '[' ∨ c = 'L' ∨ ∃ type : Primitive, c = type.tag := by
  have tags : "ZBCSIJFDL[".toList = Primitive.all.map Primitive.tag ++ ['L', '['] := by decide
  constructor
  · intro mem
    rw [tags, List.mem_append, List.mem_map] at mem
    rcases mem with ⟨type, -, rfl⟩ | mem
    · exact .inr (.inr ⟨type, rfl⟩)
    · simp only [List.mem_cons, List.not_mem_nil, or_false] at mem
      exact mem.symm.imp_right .inl
  · rintro (rfl | rfl | ⟨type, rfl⟩)
    · decide
    · decide
    · cases type <;> decide

/-- A character starts nothing exactly if its first byte does not. -/
theorem firstByte_notMem_startBytes_iff : firstByte c ∉ startBytes ↔ StartsNone c := by
  have marks : startBytes = "ZBCSIJFDL[".toList.map firstByte := rfl
  have of_mem_marks : ∀ mark ∈ "ZBCSIJFDL[".toList, mark.toNat ≤ 127 := by simp
  have member : firstByte c ∈ startBytes ↔ c ∈ "ZBCSIJFDL[".toList := by
    rw [marks, List.mem_map]
    constructor
    · rintro ⟨mark, mem, equal⟩
      have ascii : mark.toNat ≤ 127 := of_mem_marks mark mem
      have same : ofByte (firstByte c) = mark := by
        rw [← equal, ofByte_firstByte_of_ascii ascii]
      rwa [(ofByte_firstByte_eq_iff ascii).1 same]
    · exact fun mem => ⟨c, mem, rfl⟩
  rw [member, mem_marks_iff, not_or, not_or, not_exists, StartsNone]

theorem length_bytes_before (types : List ArgumentType) (dims : Nat) :
    (bytes ('(' :: (encodeTypes types ++ List.replicate dims '['))).length =
      1 + byteLength (encodeTypes types) + dims := by
  rw [length_bytes, byteLength, byteLength_append, byteLength_replicate_dims,
    show Char.utf8Size '(' = 1 from rfl, Nat.add_assoc]

/-- There are no parameters where a parenthesis is missing. -/
theorem parameters?_eq_none_iff :
    parameters? descriptor.toList = none ↔
      descriptor.toList.head? ≠ some '(' ∨ ')' ∉ descriptor.toList := by
  rw [Option.eq_none_iff_forall_ne_some]
  simp only [ne_eq, parameters?_eq_some_iff]
  constructor
  · intro none
    by_contra both
    obtain ⟨opened, closed⟩ := not_or.1 both
    obtain ⟨others, same⟩ := List.head?_eq_some_iff.1 (not_not.1 opened)
    rw [not_not, same] at closed
    obtain ⟨parameters, result, split, absent⟩ :=
      List.eq_append_cons_of_mem (List.mem_of_ne_of_mem (by decide) closed)
    exact none parameters ⟨result, by rw [same, split], absent⟩
  · rintro missing parameters ⟨result, same, -⟩
    simp [same] at missing

/-- A descriptor with parameters has the outcome of what remains behind its types. -/
theorem exists_outcome {parameters : List Char} (given : HasParameters descriptor parameters) :
    ∃ types rest outcome, parameters = encodeTypes types ++ rest ∧
      (∀ type ∈ types, type.IsEncodable) ∧ Stops rest outcome ∧
      argumentTypes descriptor =
        (outcome (1 + byteLength (encodeTypes types))).map (types ++ ·) := by
  obtain ⟨result, same, inside⟩ := given
  obtain ⟨types, rest, outcome, rfl, encodable, stops⟩ := exists_split inside
  exact ⟨types, rest, outcome, rfl, encodable, stops,
    argumentTypes_eq_of_split ⟨result, same, inside⟩ encodable stops⟩

/-! ## The two faults -/

theorem shown_argumentNames_eq_iff {fault : Fault} :
    (argumentNames descriptor).mapError Fault.shown = .error fault ↔
      ∃ cause, argumentTypes descriptor = .error cause ∧ cause.shown = fault := by
  rw [mapError_eq_error_iff]
  simp only [argumentNames, map_eq_error_iff]

theorem hasStrayByte_of_character {dims : Nat} (encodable : ∀ type ∈ types, type.IsEncodable)
    (none : StartsNone c)
    (parameters : HasParameters descriptor
      (encodeTypes types ++ (List.replicate dims '[' ++ c :: rest))) :
    HasStrayByte descriptor (1 + byteLength (encodeTypes types) + dims) (firstByte c) := by
  rw [← List.append_assoc] at parameters
  have first := getElem?_bytes [] rest c
  rw [List.nil_append, show byteLength [] = 0 from rfl, ← List.head?_eq_getElem?] at first
  exact ⟨types, dims, c :: rest, parameters, encodable, first,
    firstByte_notMem_startBytes_iff.2 none, (length_bytes_before types dims).symm⟩

/-- A stray byte is the first byte of a character at which reading stops. -/
theorem HasStrayByte.argumentTypes_eq {offset : Nat} {byte : UInt8}
    (stray : HasStrayByte descriptor offset byte) :
    ∃ c, argumentTypes descriptor = .error (.unexpected offset c) ∧ firstByte c = byte := by
  obtain ⟨types, dims, rest, parameters, encodable, first, apart, rfl⟩ := stray
  cases rest with
  | nil => simp [bytes] at first
  | cons c rest =>
    have start := getElem?_bytes [] rest c
    rw [List.nil_append, show byteLength [] = 0 from rfl, ← List.head?_eq_getElem?, first] at start
    obtain rfl := Option.some.inj start
    rw [List.append_assoc] at parameters
    have none := firstByte_notMem_startBytes_iff.1 apart
    refine ⟨c, ?_, rfl⟩
    rw [argumentTypes_eq_of_split parameters encodable (.character dims none rest),
      length_bytes_before]
    rfl

theorem IsCutShort.argumentTypes_eq (short : IsCutShort descriptor) :
    argumentTypes descriptor = .error .incomplete := by
  cases short with
  | unopened other => rw [argumentTypes, parameters?_eq_none_iff.2 (.inl other)]
  | unclosed absent => rw [argumentTypes, parameters?_eq_none_iff.2 (.inr absent)]
  | @noType types dims some_dim encodable parameters =>
    obtain ⟨count, rfl⟩ := Nat.exists_eq_succ_of_ne_zero (Nat.pos_iff_ne_zero.1 some_dim)
    exact argumentTypes_eq_of_split parameters encodable (.dims count)
  | @openName types dims name encodable parameters unended =>
    rw [List.append_assoc] at parameters
    exact argumentTypes_eq_of_split parameters encodable (.name dims unended)

/-- What a refused descriptor is refused for. -/
theorem fault_spec {fault : Fault} (refused : argumentTypes descriptor = .error fault) :
    match fault with
    | .incomplete => IsCutShort descriptor
    | .unexpected offset c => HasStrayByte descriptor offset (firstByte c) := by
  cases found : parameters? descriptor.toList with
  | none =>
    rw [argumentTypes, found] at refused
    obtain rfl := Except.error.inj refused
    exact (parameters?_eq_none_iff.1 found).elim .unopened .unclosed
  | some parameters =>
    have given := parameters?_eq_some_iff.1 found
    obtain ⟨types, rest, outcome, rfl, encodable, stops, read⟩ := exists_outcome given
    rw [refused] at read
    cases stops with
    | nothing => cases read
    | dims count =>
      obtain rfl := Except.error.inj read
      exact .noType (Nat.succ_pos count) encodable given
    | name count unended =>
      obtain rfl := Except.error.inj read
      rw [← List.append_assoc] at given
      exact .openName encodable given unended
    | character count none rest =>
      obtain rfl := Except.error.inj read
      exact hasStrayByte_of_character encodable none given

/-- A descriptor is refused for a byte exactly if the byte is stray, which is shown as the character
    with its code point, and for being incomplete exactly if it is cut short. Reading by bytes finds
    the same names and shows the same faults, and so never reads or cuts out of place. -/
theorem argumentNames_faults (descriptor : String) :
    (∀ offset found,
      (argumentNames descriptor).mapError Fault.shown = .error (.unexpected offset found) ↔
        ∃ byte, HasStrayByte descriptor offset byte ∧ found = ofByte byte) ∧
    ((argumentNames descriptor).mapError Fault.shown = .error .incomplete ↔ IsCutShort descriptor) ∧
    scanNames descriptor = (argumentNames descriptor).mapError fun fault => .fault fault.shown := by
  refine ⟨fun offset found => ?_, ?_, scanNames_eq descriptor⟩
  · rw [shown_argumentNames_eq_iff]
    constructor
    · rintro ⟨cause, refused, shown⟩
      cases cause with
      | incomplete => cases shown
      | unexpected offset' c =>
        obtain ⟨rfl, rfl⟩ := Fault.unexpected.inj shown
        exact ⟨firstByte c, fault_spec refused, rfl⟩
    · rintro ⟨byte, stray, rfl⟩
      obtain ⟨c, refused, rfl⟩ := stray.argumentTypes_eq
      exact ⟨_, refused, rfl⟩
  · rw [shown_argumentNames_eq_iff]
    constructor
    · rintro ⟨cause, refused, shown⟩
      cases cause with
      | incomplete => exact fault_spec refused
      | unexpected offset c => cases shown
    · exact fun short => ⟨_, short.argumentTypes_eq, rfl⟩

/-- A character of two bytes behind a class name with one; the offset counts bytes, and the fault
    shows the first byte. -/
example : argumentNames "(ILä;[éI)V" = .error (.unexpected 7 'é') ∧ ofByte (firstByte 'é') = 'Ã' ∧
    argumentNames "([[I[" = .error .incomplete ∧ argumentNames "(I[)V" = .error .incomplete := by
  decide +kernel

end BranchSieve.Descriptor
