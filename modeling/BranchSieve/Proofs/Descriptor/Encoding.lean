import BranchSieve.Descriptor
import BranchSieve.Proofs.Result
import BranchSieve.Proofs.Text.Cuts

/-!
# Encoded argument types

A text falls into encoded types and a remainder that starts with none, and the reader gives just
these types or what is wrong with the remainder. So a descriptor is read with the names of the types
that it encodes, and it encodes one list of types at most: where a type ends is known from the
type itself, whatever stands behind it.
-/

namespace BranchSieve.Descriptor

/-- A type whose encoding ends where it shall: no mark that ends a class or the parameters stands in
    a class name. -/
def Element.IsEncodable : Element → Prop
  | .primitive _ => True
  | .object internalName => ';' ∉ internalName ∧ ')' ∉ internalName

/-- An argument type whose encoding ends where it shall. -/
def ArgumentType.IsEncodable (type : ArgumentType) : Prop := type.element.IsEncodable

/-- The encodings of types one behind the other. -/
def encodeTypes (types : List ArgumentType) : List Char := types.flatMap ArgumentType.encode

/-- A descriptor has a text between its parentheses. -/
def HasParameters (descriptor : String) (parameters : List Char) : Prop :=
  ∃ result, descriptor.toList = '(' :: (parameters ++ ')' :: result) ∧ ')' ∉ parameters

/-- A descriptor encodes types: they stand in parentheses, with any text behind. -/
def Encodes (descriptor : String) (types : List ArgumentType) : Prop :=
  (∀ type ∈ types, type.IsEncodable) ∧
    ∃ result, descriptor.toList = '(' :: (encodeTypes types ++ ')' :: result)

/-- No type and no dimension starts with the character. -/
def StartsNone (c : Char) : Prop := c ≠ '[' ∧ c ≠ 'L' ∧ ∀ type : Primitive, c ≠ type.tag

variable {offset dims : Nat} {text rest : List Char} {types : List ArgumentType}
  {descriptor : String}

theorem parameters?_eq_some_iff {parameters : List Char} :
    parameters? descriptor.toList = some parameters ↔ HasParameters descriptor parameters := by
  unfold parameters? HasParameters
  split
  · next rest same =>
    simp only [Option.map_eq_some_iff, Prod.exists, Text.splitAt?_singleton_eq_some_iff]
    constructor
    · rintro ⟨_, result, ⟨rfl, absent⟩, rfl⟩
      exact ⟨result, same, absent⟩
    · rintro ⟨result, split, absent⟩
      exact ⟨parameters, result, ⟨List.cons.inj (same.symm.trans split) |>.2, absent⟩, rfl⟩
  · next other =>
    apply iff_of_false (by simp)
    rintro ⟨result, split, -⟩
    exact other _ split

/-! ## Reading what is encoded -/

theorem byteLength_append (front back : List Char) :
    byteLength (front ++ back) = byteLength front + byteLength back := by
  induction front with
  | nil => simp [byteLength]
  | cons c front ih => simp [byteLength, ih, Nat.add_assoc]

theorem byteLength_replicate_dims (count : Nat) :
    byteLength (List.replicate count '[') = count := by
  induction count with
  | zero => rfl
  | succ count ih =>
    rw [List.replicate_succ, byteLength, ih, show Char.utf8Size '[' = 1 from rfl, Nat.add_comm]

theorem ofTag?_eq_none_iff {c : Char} :
    Primitive.ofTag? c = none ↔ ∀ type : Primitive, c ≠ type.tag := by
  constructor
  · rintro none type rfl
    simp at none
  · intro other
    rw [Primitive.ofTag?, List.find?_eq_none]
    exact fun type _ => by simpa using (other type).symm

theorem tag_ne (type : Primitive) : type.tag ≠ '[' ∧ type.tag ≠ 'L' := by
  cases type <;> decide

theorem typesFrom_dims (count : Nat) :
    typesFrom offset dims (List.replicate count '[' ++ text) =
      typesFrom (offset + count) (dims + count) text := by
  induction count generalizing offset dims with
  | zero => rfl
  | succ count ih =>
    rw [List.replicate_succ, List.cons_append, typesFrom, if_pos rfl, ih]
    congr 1 <;> omega

theorem typesFrom_element {element : Element} (encodable : element.IsEncodable) :
    typesFrom offset dims (element.encode ++ text) =
      (typesFrom (offset + byteLength element.encode) 0 text).map (⟨dims, element⟩ :: ·) := by
  cases element with
  | primitive type =>
    obtain ⟨noDim, noClass⟩ := tag_ne type
    have size : byteLength [type.tag] = 1 := by cases type <;> rfl
    rw [Element.encode, List.singleton_append, typesFrom, if_neg noDim, if_neg noClass,
      Primitive.ofTag?_tag, size]
  | object name =>
    have cut : Text.splitAt? [';'] (name ++ ';' :: text) = some (name, text) :=
      Text.splitAt?_singleton_eq_some_iff.2 ⟨rfl, encodable.1⟩
    have size : byteLength ('L' :: name ++ [';']) = byteLength name + 2 := by
      rw [byteLength_append, byteLength, byteLength, byteLength,
        show Char.utf8Size 'L' = 1 from rfl,
        show Char.utf8Size ';' = 1 from rfl]
      omega
    have whole : Element.encode (.object name) ++ text = 'L' :: (name ++ ';' :: text) := by
      simp [Element.encode]
    rw [whole, typesFrom, if_neg (by decide), if_pos rfl, Element.encode, size, ← Nat.add_assoc]
    split
    · next uncut => simp [cut] at uncut
    · next name' rest' cut' =>
      obtain ⟨rfl, rfl⟩ := Prod.mk.inj (Option.some.inj (cut.symm.trans cut'))
      rfl

theorem typesFrom_type {type : ArgumentType} (encodable : type.IsEncodable) :
    typesFrom offset 0 (type.encode ++ text) =
      (typesFrom (offset + byteLength type.encode) 0 text).map (type :: ·) := by
  rw [ArgumentType.encode, List.append_assoc, typesFrom_dims, typesFrom_element encodable,
    byteLength_append, byteLength_replicate_dims, Nat.zero_add, Nat.add_assoc]

/-- Encoded types are read, and reading goes on behind them. -/
theorem typesFrom_types (encodable : ∀ type ∈ types, type.IsEncodable) :
    typesFrom offset 0 (encodeTypes types ++ text) =
      (typesFrom (offset + byteLength (encodeTypes types)) 0 text).map (types ++ ·) := by
  induction types generalizing offset with
  | nil =>
    change typesFrom offset 0 text = (typesFrom offset 0 text).map id
    cases typesFrom offset 0 text <;> rfl
  | cons type types ih =>
    obtain ⟨first, others⟩ := List.forall_mem_cons.1 encodable
    rw [encodeTypes, List.flatMap_cons, ← encodeTypes, List.append_assoc, typesFrom_type first,
      ih others, byteLength_append, Nat.add_assoc]
    cases typesFrom (offset + (byteLength type.encode + byteLength (encodeTypes types))) 0 text <;>
      rfl

/-! ## What remains behind the types -/

/-- What starts with no type, and the outcome of reading it at an offset. -/
inductive Stops : List Char → (Nat → Except Fault (List ArgumentType)) → Prop where
  | nothing : Stops [] fun _ => .ok []
  /-- There is no type behind some dimensions. -/
  | dims (count : Nat) : Stops (List.replicate (count + 1) '[') fun _ => .error .incomplete
  /-- The name of a class does not end. -/
  | name (count : Nat) {name : List Char} (unended : ';' ∉ name) :
      Stops (List.replicate count '[' ++ 'L' :: name) fun _ => .error .incomplete
  /-- No type starts with a character. -/
  | character (count : Nat) {c : Char} (none : StartsNone c) (rest : List Char) :
      Stops (List.replicate count '[' ++ c :: rest) fun offset =>
        .error (.unexpected (offset + count) c)

theorem Stops.typesFrom_eq {outcome : Nat → Except Fault (List ArgumentType)}
    (stops : Stops rest outcome) (offset : Nat) : typesFrom offset 0 rest = outcome offset := by
  cases stops with
  | nothing => rw [typesFrom, if_pos rfl]
  | dims count =>
    rw [← List.append_nil (List.replicate (count + 1) '['), typesFrom_dims, typesFrom,
      if_neg (by omega)]
  | name count unended =>
    rw [typesFrom_dims, typesFrom, if_neg (by decide), if_pos rfl]
    split
    · rfl
    · next cut =>
      obtain ⟨rfl, -⟩ := Text.splitAt?_singleton_eq_some_iff.1 cut
      simp at unended
  | character count none rest =>
    obtain ⟨noDim, noClass, noTag⟩ := none
    rw [typesFrom_dims, typesFrom, if_neg noDim, if_neg noClass, ofTag?_eq_none_iff.2 noTag]

theorem encode_append_of_split {type : ArgumentType}
    (split : text = encodeTypes types ++ rest) :
    type.encode ++ text = encodeTypes (type :: types) ++ rest := by
  rw [split, encodeTypes, encodeTypes, List.flatMap_cons, List.append_assoc]

/-- Any text behind some dimensions falls into encoded types and a remainder. -/
theorem exists_split_dims (offset dims : Nat) (text : List Char) (inside : ')' ∉ text) :
    ∃ types rest outcome, List.replicate dims '[' ++ text = encodeTypes types ++ rest ∧
      (∀ type ∈ types, type.IsEncodable) ∧ Stops rest outcome := by
  fun_induction typesFrom offset dims text with
  | case1 offset => exact ⟨[], [], _, rfl, by simp, .nothing⟩
  | case2 offset dims some_dim =>
    obtain ⟨count, rfl⟩ := Nat.exists_eq_succ_of_ne_zero some_dim
    exact ⟨[], _, _, List.append_nil _, by simp, .dims count⟩
  | case3 offset dims cs ih =>
    obtain ⟨types, rest, outcome, split, encodable, stops⟩ :=
      ih (List.not_mem_of_not_mem_cons inside)
    refine ⟨types, rest, outcome, ?_, encodable, stops⟩
    rw [← split, List.replicate_succ', List.append_assoc, List.singleton_append]
  | case4 offset dims cs uncut =>
    refine ⟨[], _, _, rfl, by simp, .name dims fun ends => ?_⟩
    obtain ⟨name, rest, split, first⟩ := List.eq_append_cons_of_mem ends
    have cut := Text.splitAt?_singleton_eq_some_iff.2 ⟨split, first⟩
    simp [uncut] at cut
  | case5 offset dims cs name rest cut _ shorter ih =>
    obtain ⟨rfl, ended⟩ := Text.splitAt?_singleton_eq_some_iff.1 cut
    simp only [List.mem_cons, List.mem_append, not_or] at inside
    obtain ⟨types, rest, outcome, split, encodable, stops⟩ := ih inside.2.2.2
    refine ⟨⟨dims, .object name⟩ :: types, rest, outcome, ?_,
      List.forall_mem_cons.2 ⟨⟨ended, inside.2.1⟩, encodable⟩, stops⟩
    rw [← encode_append_of_split split]
    simp [ArgumentType.encode, Element.encode]
  | case6 offset dims c cs noDim noClass noTag =>
    exact ⟨[], _, _, rfl, by simp,
      .character dims ⟨noDim, noClass, ofTag?_eq_none_iff.1 noTag⟩ cs⟩
  | case7 offset dims c cs noDim noClass type isTag ih =>
    obtain ⟨types, rest, outcome, split, encodable, stops⟩ :=
      ih (List.not_mem_of_not_mem_cons inside)
    obtain rfl : type.tag = c := by simpa using List.find?_some isTag
    refine ⟨⟨dims, .primitive type⟩ :: types, rest, outcome, ?_,
      List.forall_mem_cons.2 ⟨trivial, encodable⟩, stops⟩
    rw [← encode_append_of_split split]
    simp [ArgumentType.encode, Element.encode]

/-- Parameters fall into encoded types and a remainder. -/
theorem exists_split (inside : ')' ∉ text) :
    ∃ types rest outcome, text = encodeTypes types ++ rest ∧
      (∀ type ∈ types, type.IsEncodable) ∧ Stops rest outcome :=
  exists_split_dims 0 0 text inside

/-- The types of parameters are those that they start with if nothing remains, and the fault is that
    of the remainder if not. -/
theorem argumentTypes_eq_of_split {outcome : Nat → Except Fault (List ArgumentType)}
    (parameters : HasParameters descriptor (encodeTypes types ++ rest))
    (encodable : ∀ type ∈ types, type.IsEncodable) (stops : Stops rest outcome) :
    argumentTypes descriptor =
      (outcome (1 + byteLength (encodeTypes types))).map (types ++ ·) := by
  rw [argumentTypes, parameters?_eq_some_iff.2 parameters]
  exact (typesFrom_types encodable).trans (congrArg _ (stops.typesFrom_eq _))

/-! ## Names of the types -/

/-- The marks of class names and dimensions do not close the parameters. -/
theorem close_notMem_encodeTypes (encodable : ∀ type ∈ types, type.IsEncodable) :
    ')' ∉ encodeTypes types := by
  intro mem
  obtain ⟨type, given, mem⟩ := List.mem_flatMap.1 mem
  have inside := encodable type given
  rcases List.mem_append.1 mem with dim | mem
  · exact absurd (List.eq_of_mem_replicate dim) (by decide)
  · rcases type with ⟨dims, primitive | name⟩
    · have closes := List.mem_singleton.1 mem
      cases primitive <;> exact absurd closes (by decide)
    · simp [Element.encode, inside.2] at mem

theorem hasParameters_of_encodes (encodes : Encodes descriptor types) :
    HasParameters descriptor (encodeTypes types) := by
  obtain ⟨encodable, result, same⟩ := encodes
  exact ⟨result, same, close_notMem_encodeTypes encodable⟩

theorem argumentTypes_eq_ok_iff :
    argumentTypes descriptor = .ok types ↔ Encodes descriptor types := by
  constructor
  · intro read
    unfold argumentTypes at read
    split at read
    · next parameters found =>
      obtain ⟨result, same, inside⟩ := parameters?_eq_some_iff.1 found
      obtain ⟨types', rest, outcome, rfl, encodable, stops⟩ := exists_split inside
      rw [typesFrom_types encodable, stops.typesFrom_eq] at read
      cases stops with
      | nothing =>
        obtain rfl : types' = types := by simpa [Except.map] using read
        exact ⟨encodable, result, by simpa using same⟩
      | _ => cases read
    · cases read
  · intro encodes
    have parameters := hasParameters_of_encodes encodes
    rw [← List.append_nil (encodeTypes types)] at parameters
    rw [argumentTypes_eq_of_split parameters encodes.1 .nothing, Except.map, List.append_nil]

/-- The names of a descriptor are those of the types that it encodes, and there is one list of types
    at most that it encodes. -/
theorem argumentNames_of_encoding (descriptor : String) :
    (∀ types, Encodes descriptor types →
      argumentNames descriptor = .ok (types.map ArgumentType.className)) ∧
    ∀ names, argumentNames descriptor = .ok names →
      ∃ types, names = types.map ArgumentType.className ∧
        ∀ other, Encodes descriptor other ↔ other = types := by
  constructor
  · intro types encodes
    rw [argumentNames, argumentTypes_eq_ok_iff.2 encodes, Except.map]
  · intro names read
    obtain ⟨types, types_read, rfl⟩ := map_eq_ok_iff.1 read
    refine ⟨types, rfl, fun other => ?_⟩
    rw [← argumentTypes_eq_ok_iff, types_read, Except.ok.injEq, eq_comm]

/-- A class name may hold letters that are tags, brackets and characters beyond ASCII, or be empty;
    what stands behind the parentheses may be anything. -/
theorem argumentNames_of_mixed_encoding :
    let types : List ArgumentType := [⟨2, .object "ä/[I€/Z".toList⟩, ⟨0, .primitive .int⟩,
      ⟨1, .object []⟩, ⟨3, .primitive .boolean⟩, ⟨0, .object "L/L(".toList⟩]
    let descriptor := "([[Lä/[I€/Z;I[L;[[[ZLL/L(;)V)("
    let names := ["ä.[I€.Z[][]", "int", "[]", "boolean[][][]", "L.L("]
    Encodes descriptor types ∧ argumentNames descriptor = .ok names ∧
      ∃ types, names = types.map ArgumentType.className ∧
        ∀ other, Encodes descriptor other ↔ other = types := by
  intro types descriptor names
  have encodes : Encodes descriptor types := by
    refine ⟨?_, "V)(".toList, by decide +kernel⟩
    simp only [types, List.forall_mem_cons, ArgumentType.IsEncodable, Element.IsEncodable]
    exact ⟨by decide, trivial, by decide, trivial, by decide, by simp⟩
  have same : types.map ArgumentType.className = names := by decide +kernel
  have read : argumentNames descriptor = .ok names := by
    rw [(argumentNames_of_encoding descriptor).1 types encodes, same]
  exact ⟨encodes, read, (argumentNames_of_encoding descriptor).2 names read⟩

end BranchSieve.Descriptor
