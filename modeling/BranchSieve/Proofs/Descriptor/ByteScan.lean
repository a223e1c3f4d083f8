import BranchSieve.Proofs.Descriptor.Encoding

/-!
# Argument types by bytes

The parameters of a descriptor can be read by a position that counts bytes of UTF-8. Such a scan
looks at single bytes, takes each for the character with that code point, and cuts class names out
of the text. A position could lie beyond the end or inside of a character, which the scan would have
to report. It never does: it finds the types that reading by characters finds, and the same faults
at the same offsets, because no byte of a longer character is one of the marks.
-/

namespace BranchSieve.Descriptor

/-- The bytes of a text in UTF-8. -/
def bytes (text : List Char) : List UInt8 := text.flatMap String.utf8EncodeChar

/-- The first byte of a character. -/
def firstByte (c : Char) : UInt8 := (String.utf8EncodeChar c).headD 0

/-- The character that has a byte as its code point. -/
def ofByte (byte : UInt8) : Char := Char.ofNat byte.toNat

/-- Why a scan ends without types. -/
inductive ScanFault where
  /-- The descriptor is at fault. -/
  | fault (fault : Fault)
  /-- A byte is read beyond the end. -/
  | outOfBounds (position : Nat)
  /-- The text is cut inside of a character or beyond the end. -/
  | cutCharacter (position : Nat)
  deriving DecidableEq, Repr

/-- The parts of a text in front of a position and from it on, unless it is inside of a
    character. -/
def cutAt? : Nat → List Char → Option (List Char × List Char)
  | 0, text => some ([], text)
  | _ + 1, [] => none
  | position + 1, c :: text =>
    if c.utf8Size ≤ position + 1 then
      (cutAt? (position + 1 - c.utf8Size) text).map fun (front, back) => (c :: front, back)
    else none

/-- The byte of a text at a position. -/
def byteAt (text : List Char) (position : Nat) : Except ScanFault UInt8 :=
  match (bytes text)[position]? with
  | some byte => .ok byte
  | none => .error (.outOfBounds position)

/-- The text from a position on. -/
def sliceFrom (text : List Char) (first : Nat) : Except ScanFault (List Char) :=
  match cutAt? first text with
  | some (_, back) => .ok back
  | none => .error (.cutCharacter first)

/-- The text from a position up to another one. -/
def slice (text : List Char) (first last : Nat) : Except ScanFault (List Char) :=
  match cutAt? last text with
  | some (front, _) => sliceFrom front first
  | none => .error (.cutCharacter last)

/-- The position behind some dimensions, and their number when `dims` were counted before. -/
def scanDims (text : List Char) (position dims : Nat) : Except ScanFault (Nat × Nat) :=
  if position < (bytes text).length then do
    let byte ← byteAt text position
    if ofByte byte = '[' then scanDims text (position + 1) (dims + 1) else return (position, dims)
  else .ok (position, dims)
termination_by (bytes text).length - position

/-- The class whose encoding starts at a position, with the position of the mark that ends it. -/
def scanClass (text : List Char) (position : Nat) : Except ScanFault (Element × Nat) := do
  let tail ← sliceFrom text position
  match Text.splitAt? [';'] tail with
  | none => .error (.fault .incomplete)
  | some (front, _) =>
    let last := position + byteLength front
    let name ← slice text (position + 1) last
    return (.object name, last)

/-- The type without dimensions that starts with a tag at a position, and its last position. The
    parenthesis in front of the parameters counts for the offset of a fault. -/
def scanElement (text : List Char) (position : Nat) (tag : Char) :
    Except ScanFault (Element × Nat) :=
  if tag = 'L' then scanClass text position
  else
    match Primitive.ofTag? tag with
    | some type => .ok (.primitive type, position)
    | none => .error (.fault (.unexpected (position + 1) tag))

theorem le_of_scanDims {text : List Char} {position dims start count : Nat}
    (scanned : scanDims text position dims = .ok (start, count)) : position ≤ start := by
  fun_induction scanDims text position dims with
  | case1 position dims inside ih =>
    obtain ⟨byte, -, scanned⟩ := bind_eq_ok_iff.1 scanned
    split at scanned
    · have later := ih scanned
      omega
    · obtain ⟨rfl, -⟩ := Prod.mk.inj (pure_eq_ok_iff.1 scanned)
      exact Nat.le_refl _
  | case2 position dims outside =>
    obtain ⟨rfl, -⟩ := Prod.mk.inj (Except.ok.inj scanned)
    exact Nat.le_refl _

theorem le_of_scanElement {text : List Char} {position last : Nat} {tag : Char} {element : Element}
    (scanned : scanElement text position tag = .ok (element, last)) : position ≤ last := by
  unfold scanElement at scanned
  split at scanned
  · obtain ⟨tail, -, scanned⟩ := bind_eq_ok_iff.1 scanned
    split at scanned
    · cases scanned
    · obtain ⟨name, -, scanned⟩ := bind_eq_ok_iff.1 scanned
      obtain ⟨-, rfl⟩ := Prod.mk.inj (pure_eq_ok_iff.1 scanned)
      exact Nat.le_add_right _ _
  · split at scanned
    · obtain ⟨-, rfl⟩ := Prod.mk.inj (Except.ok.inj scanned)
      exact Nat.le_refl _
    · cases scanned

/-- The argument type that starts at a position, with the position behind it. -/
def scanType (text : List Char) (position : Nat) : Except ScanFault (ArgumentType × Nat) := do
  let (start, dims) ← scanDims text position 0
  match (bytes text)[start]? with
  | none => .error (.fault .incomplete)
  | some tag =>
    let (element, last) ← scanElement text start (ofByte tag)
    return (⟨dims, element⟩, last + 1)

theorem lt_of_scanType {text : List Char} {position next : Nat} {type : ArgumentType}
    (scanned : scanType text position = .ok (type, next)) : position < next := by
  obtain ⟨⟨start, dims⟩, dims_found, scanned⟩ := bind_eq_ok_iff.1 scanned
  have start_le := le_of_scanDims dims_found
  dsimp only at scanned
  split at scanned
  · cases scanned
  · obtain ⟨⟨element, last⟩, element_found, scanned⟩ := bind_eq_ok_iff.1 scanned
    have last_le := le_of_scanElement element_found
    obtain ⟨-, rfl⟩ := Prod.mk.inj (pure_eq_ok_iff.1 scanned)
    omega

/-- The argument types in a text from a position on. -/
def scanTypes (text : List Char) (position : Nat) : Except ScanFault (List ArgumentType) :=
  if position < (bytes text).length then
    match _found : scanType text position with
    | .error fault => .error fault
    | .ok (type, next) => (scanTypes text next).map (type :: ·)
  else .ok []
termination_by (bytes text).length - position
decreasing_by
  have := lt_of_scanType _found
  omega

/-- The names of the argument types of a method descriptor, found by bytes. -/
def scanNames (descriptor : String) : Except ScanFault (List String) :=
  match parameters? descriptor.toList with
  | some parameters => (scanTypes parameters 0).map (·.map ArgumentType.className)
  | none => .error (.fault .incomplete)

/-- The fault as a scan over bytes shows it: a character beyond ASCII shows as its first byte. -/
def Fault.shown : Fault → Fault
  | .incomplete => .incomplete
  | .unexpected offset found => .unexpected offset (leadByte found)

/-! ## Bytes and characters -/

variable {front back text rest : List Char} {c mark : Char}

theorem bytes_append (front back : List Char) : bytes (front ++ back) = bytes front ++ bytes back :=
  List.flatMap_append

theorem length_bytes (text : List Char) : (bytes text).length = byteLength text := by
  induction text with
  | nil => rfl
  | cons c text ih =>
    rw [bytes, List.flatMap_cons, List.length_append, String.length_utf8EncodeChar, ← bytes, ih,
      byteLength]

theorem byteLength_pos (nonempty : text ≠ []) : 0 < byteLength text := by
  obtain ⟨c, text, rfl⟩ := List.exists_cons_of_ne_nil nonempty
  have pos := c.utf8Size_pos
  rw [byteLength]
  omega

theorem lt_length_of_append (front : List Char) (nonempty : rest ≠ []) :
    byteLength front < (bytes (front ++ rest)).length := by
  have pos := byteLength_pos nonempty
  rw [length_bytes, byteLength_append]
  omega

theorem getElem?_bytes (front rest : List Char) (c : Char) :
    (bytes (front ++ c :: rest))[byteLength front]? = some (firstByte c) := by
  have first : (String.utf8EncodeChar c).head? = some (firstByte c) := by
    rw [firstByte, List.headD_eq_head?_getD, List.head?_eq_some_head String.utf8EncodeChar_ne_nil]
    rfl
  rw [bytes_append, List.getElem?_append_right (by rw [length_bytes]), length_bytes, Nat.sub_self,
    ← List.head?_eq_getElem?, bytes, List.flatMap_cons, List.head?_append, first]
  rfl

theorem toNat_ofByte (byte : UInt8) : (ofByte byte).toNat = byte.toNat := by
  have valid : byte.toNat.isValidChar := .inl (by have := byte.toNat_lt; omega)
  rw [ofByte, Char.ofNat, dif_pos valid]
  rfl

theorem ofByte_firstByte_of_ascii (ascii : c.toNat ≤ 127) : ofByte (firstByte c) = c := by
  have short : c.val.toNat ≤ 127 := ascii
  have same : (ofByte (firstByte c)).toNat = c.toNat := by
    rw [toNat_ofByte, firstByte, String.utf8EncodeChar]
    simp only [short, ↓reduceIte, List.headD_cons, UInt8.toNat_ofNat']
    exact Nat.mod_eq_of_lt (by omega)
  exact Char.toNat_inj.1 same

/-- The first byte of a character beyond ASCII is beyond ASCII. -/
theorem lt_toNat_firstByte (beyond : ¬ c.toNat ≤ 127) : 127 < (firstByte c).toNat := by
  have long : ¬ c.val.toNat ≤ 127 := beyond
  have bound : c.val.toNat < 1114112 := by rcases c.valid with low | high <;> omega
  rw [firstByte, String.utf8EncodeChar]
  simp only [long, ↓reduceIte]
  split
  · simp only [List.headD_cons, UInt8.toNat_ofNat']
    omega
  split
  · simp only [List.headD_cons, UInt8.toNat_ofNat']
    omega
  · simp only [List.headD_cons, UInt8.toNat_ofNat']
    omega

/-- The first byte of a character is a mark of ASCII only if the character is. -/
theorem ofByte_firstByte_eq_iff (ascii : mark.toNat ≤ 127) :
    ofByte (firstByte c) = mark ↔ c = mark := by
  by_cases short : c.toNat ≤ 127
  · rw [ofByte_firstByte_of_ascii short]
  · have beyond := lt_toNat_firstByte short
    apply iff_of_false
    · rintro rfl
      rw [toNat_ofByte] at ascii
      omega
    · rintro rfl
      exact short ascii

theorem ofTag?_ofByte_firstByte : Primitive.ofTag? (ofByte (firstByte c)) = Primitive.ofTag? c := by
  have same : ∀ type : Primitive, (type.tag == ofByte (firstByte c)) = (type.tag == c) := by
    intro type
    have ascii : type.tag.toNat ≤ 127 := by cases type <;> decide
    rw [Bool.eq_iff_iff, beq_iff_eq, beq_iff_eq, eq_comm, ofByte_firstByte_eq_iff ascii, eq_comm]
  simp only [Primitive.ofTag?, same]

theorem cutAt?_append (front back : List Char) :
    cutAt? (byteLength front) (front ++ back) = some (front, back) := by
  induction front with
  | nil => rw [byteLength, cutAt?, List.nil_append]
  | cons c front ih =>
    obtain ⟨size, pos⟩ := Nat.exists_eq_succ_of_ne_zero (Nat.pos_iff_ne_zero.1 c.utf8Size_pos)
    have count : byteLength (c :: front) = size + byteLength front + 1 := by
      rw [byteLength]
      omega
    have left : size + byteLength front + 1 - c.utf8Size = byteLength front := by omega
    rw [count, List.cons_append, cutAt?, if_pos (by omega), left, ih]
    rfl

theorem sliceFrom_append (front back : List Char) :
    sliceFrom (front ++ back) (byteLength front) = .ok back := by
  rw [sliceFrom, cutAt?_append]

theorem slice_append (front name back : List Char) :
    slice (front ++ (name ++ back)) (byteLength front) (byteLength front + byteLength name) =
      .ok name := by
  rw [slice, ← byteLength_append, ← List.append_assoc, cutAt?_append]
  exact sliceFrom_append front name

/-! ## The scan and the reader -/

theorem byteAt_append (front rest : List Char) (c : Char) :
    byteAt (front ++ c :: rest) (byteLength front) = .ok (firstByte c) := by
  rw [byteAt, getElem?_bytes]

theorem scanDims_cons (dims : Nat) (front rest : List Char) (c : Char) :
    scanDims (front ++ c :: rest) (byteLength front) dims =
      if c = '[' then scanDims (front ++ c :: rest) (byteLength front + 1) (dims + 1)
      else .ok (byteLength front, dims) := by
  rw [scanDims, if_pos (lt_length_of_append front (List.cons_ne_nil c rest)), byteAt_append,
    ok_bind]
  simp only [ofByte_firstByte_eq_iff (show '['.toNat ≤ 127 by decide)]
  rfl

/-- The scan counts dimensions up to the first other byte. -/
theorem scanDims_append (dims count : Nat) (front rest : List Char)
    (other : rest.head? ≠ some '[') :
    scanDims (front ++ (List.replicate count '[' ++ rest)) (byteLength front) dims =
      .ok (byteLength front + count, dims + count) := by
  induction count generalizing front dims with
  | zero =>
    rw [List.replicate_zero, List.nil_append]
    cases rest with
    | nil =>
      rw [scanDims, if_neg (by simp [length_bytes])]
      rfl
    | cons c rest =>
      rw [scanDims_cons, if_neg (by simpa using other)]
      rfl
  | succ count ih =>
    have size : byteLength (front ++ ['[']) = byteLength front + 1 := byteLength_append front ['[']
    have goOn := ih (dims + 1) (front ++ ['['])
    rw [size, List.append_assoc, List.singleton_append] at goOn
    rw [List.replicate_succ, List.cons_append, scanDims_cons, if_pos rfl, goOn, Nat.add_assoc,
      Nat.add_assoc, Nat.add_comm 1 count]

theorem scanClass_append {name : List Char} (unended : ';' ∉ name) (front back : List Char) :
    scanClass (front ++ 'L' :: (name ++ ';' :: back)) (byteLength front) =
      .ok (.object name, byteLength front + (1 + byteLength name)) := by
  have free : ';' ∉ 'L' :: name := List.not_mem_cons_of_ne_of_not_mem (by decide) unended
  have cut : Text.splitAt? [';'] ('L' :: (name ++ ';' :: back)) = some ('L' :: name, back) :=
    Text.splitAt?_singleton_eq_some_iff.2 ⟨rfl, free⟩
  have tag : byteLength (front ++ ['L']) = byteLength front + 1 := byteLength_append front ['L']
  have inner := slice_append (front ++ ['L']) name (';' :: back)
  rw [tag, List.append_assoc, List.singleton_append, Nat.add_assoc] at inner
  rw [scanClass, sliceFrom_append, ok_bind, cut]
  dsimp only
  rw [byteLength, show Char.utf8Size 'L' = 1 from rfl, inner, ok_bind]
  rfl

/-- Where a type starts, its element is read behind the dimensions. -/
theorem scanType_dims (count : Nat) (front rest : List Char) (c : Char) (other : c ≠ '[') :
    scanType (front ++ (List.replicate count '[' ++ c :: rest)) (byteLength front) =
      (scanElement (front ++ (List.replicate count '[' ++ c :: rest)) (byteLength front + count)
        (ofByte (firstByte c))).map fun (element, last) => (⟨count, element⟩, last + 1) := by
  have dims := scanDims_append 0 count front (c :: rest) (by simpa using other)
  have tag := getElem?_bytes (front ++ List.replicate count '[') rest c
  rw [byteLength_append, byteLength_replicate_dims, List.append_assoc] at tag
  rw [scanType, dims, ok_bind, Nat.zero_add]
  dsimp only
  rw [tag]
  rfl

theorem scanElement_firstByte (text : List Char) (position : Nat) (c : Char) :
    scanElement text position (ofByte (firstByte c)) =
      if c = 'L' then scanClass text position
      else
        match Primitive.ofTag? c with
        | some type => .ok (.primitive type, position)
        | none => .error (.fault (.unexpected (position + 1) (leadByte c))) := by
  unfold scanElement
  simp only [ofByte_firstByte_eq_iff (show 'L'.toNat ≤ 127 by decide), ofTag?_ofByte_firstByte]
  rfl

/-- An encoded type is scanned up to its end. -/
theorem scanType_encode {type : ArgumentType} (encodable : type.IsEncodable)
    (front back : List Char) :
    scanType (front ++ (type.encode ++ back)) (byteLength front) =
      .ok (type, byteLength front + byteLength type.encode) := by
  rcases type with ⟨count, primitive | name⟩
  · have whole : ArgumentType.encode ⟨count, .primitive primitive⟩ ++ back =
        List.replicate count '[' ++ primitive.tag :: back := by
      simp [ArgumentType.encode, Element.encode]
    have size : byteLength [primitive.tag] = 1 := by cases primitive <;> rfl
    rw [whole, scanType_dims _ _ _ _ (tag_ne primitive).1, scanElement_firstByte,
      if_neg (tag_ne primitive).2, Primitive.ofTag?_tag, ArgumentType.encode, byteLength_append,
      byteLength_replicate_dims, Element.encode, size, ← Nat.add_assoc]
    rfl
  · have whole : ArgumentType.encode ⟨count, .object name⟩ ++ back =
        List.replicate count '[' ++ 'L' :: (name ++ ';' :: back) := by
      simp [ArgumentType.encode, Element.encode]
    have size : byteLength ('L' :: name ++ [';']) = 1 + byteLength name + 1 :=
      byteLength_append ('L' :: name) [';']
    have last : byteLength front + count + (1 + byteLength name) + 1 =
        byteLength front + (count + (1 + byteLength name + 1)) := by omega
    have scanned := scanClass_append encodable.1 (front ++ List.replicate count '[') back
    rw [byteLength_append, byteLength_replicate_dims, List.append_assoc] at scanned
    rw [whole, scanType_dims _ _ _ _ (by decide), scanElement_firstByte, if_pos rfl, scanned,
      ArgumentType.encode, byteLength_append, byteLength_replicate_dims, Element.encode, size,
      ← last]
    rfl

theorem scanTypes_of_ok {position next : Nat} {type : ArgumentType}
    (inside : position < (bytes text).length)
    (scanned : scanType text position = .ok (type, next)) :
    scanTypes text position = (scanTypes text next).map (type :: ·) := by
  rw [scanTypes, if_pos inside]
  split
  · next failed => simp [scanned] at failed
  · next found =>
    obtain ⟨rfl, rfl⟩ := Prod.mk.inj (Except.ok.inj (scanned.symm.trans found))
    rfl

theorem scanTypes_of_error {position : Nat} {fault : ScanFault}
    (inside : position < (bytes text).length) (scanned : scanType text position = .error fault) :
    scanTypes text position = .error fault := by
  rw [scanTypes, if_pos inside]
  split
  · next failed => rw [Except.error.inj (failed.symm.trans scanned)]
  · next found => simp [scanned] at found

theorem encode_ne_nil (type : ArgumentType) : type.encode ≠ [] := by
  rcases type with ⟨count, primitive | name⟩ <;> simp [ArgumentType.encode, Element.encode]

/-- Encoded types are scanned one after another. -/
theorem scanTypes_types {types : List ArgumentType}
    (encodable : ∀ type ∈ types, type.IsEncodable) (front back : List Char) :
    scanTypes (front ++ (encodeTypes types ++ back)) (byteLength front) =
      (scanTypes (front ++ (encodeTypes types ++ back))
        (byteLength (front ++ encodeTypes types))).map (types ++ ·) := by
  induction types generalizing front with
  | nil =>
    rw [encodeTypes, List.flatMap_nil, List.append_nil]
    cases scanTypes (front ++ ([] ++ back)) (byteLength front) <;> rfl
  | cons type types ih =>
    obtain ⟨first, others⟩ := List.forall_mem_cons.1 encodable
    have split : encodeTypes (type :: types) = type.encode ++ encodeTypes types :=
      List.flatMap_cons
    have inside := lt_length_of_append front
      (List.append_ne_nil_of_left_ne_nil (encode_ne_nil type) (encodeTypes types ++ back))
    have goOn := ih others (front ++ type.encode)
    rw [byteLength_append front, List.append_assoc, List.append_assoc] at goOn
    rw [split, List.append_assoc, scanTypes_of_ok inside (scanType_encode first front _), goOn]
    cases scanTypes (front ++ (type.encode ++ (encodeTypes types ++ back)))
      (byteLength (front ++ (type.encode ++ encodeTypes types))) <;> rfl

/-- The scan of what starts with no type ends as reading it does. -/
theorem Stops.scanTypes_eq {outcome : Nat → Except Fault (List ArgumentType)}
    (stops : Stops rest outcome) (front : List Char) :
    scanTypes (front ++ rest) (byteLength front) =
      (outcome (byteLength front + 1)).mapError fun fault => .fault fault.shown := by
  cases stops with
  | nothing =>
    rw [List.append_nil, scanTypes, if_neg (by simp [length_bytes])]
    rfl
  | dims count =>
    refine scanTypes_of_error (lt_length_of_append front (by simp)) ?_
    have dims := scanDims_append 0 (count + 1) front [] (by simp)
    have size : (bytes (front ++ List.replicate (count + 1) '[')).length =
        byteLength front + (count + 1) := by
      rw [length_bytes, byteLength_append, byteLength_replicate_dims]
    rw [List.append_nil] at dims
    rw [scanType, dims, ok_bind]
    dsimp only
    rw [← size, List.getElem?_length]
    rfl
  | @name count name unended =>
    refine scanTypes_of_error (lt_length_of_append front (by simp)) ?_
    have tail := sliceFrom_append (front ++ List.replicate count '[') ('L' :: name)
    rw [byteLength_append, byteLength_replicate_dims, List.append_assoc] at tail
    have uncut : Text.splitAt? [';'] ('L' :: name) = none := by
      rw [Option.eq_none_iff_forall_ne_some]
      rintro ⟨before, after⟩ cut
      obtain ⟨split, -⟩ := Text.splitAt?_singleton_eq_some_iff.1 cut
      have mem : ';' ∈ 'L' :: name := by rw [split]; simp
      exact unended (List.mem_of_ne_of_mem (by decide) mem)
    rw [scanType_dims _ _ _ _ (by decide), scanElement_firstByte, if_pos rfl, scanClass, tail,
      ok_bind, uncut]
    rfl
  | character count none rest =>
    obtain ⟨noDim, noClass, noTag⟩ := none
    refine scanTypes_of_error (lt_length_of_append front (by simp)) ?_
    rw [scanType_dims _ _ _ _ noDim, scanElement_firstByte, if_neg noClass,
      ofTag?_eq_none_iff.2 noTag, Nat.add_right_comm]
    rfl

/-- The scan finds what reading by characters finds, and shows the same faults. -/
theorem scanNames_eq (descriptor : String) :
    scanNames descriptor =
      (argumentNames descriptor).mapError fun fault => .fault fault.shown := by
  rw [scanNames, argumentNames, argumentTypes]
  cases found : parameters? descriptor.toList with
  | none => rfl
  | some parameters =>
    obtain ⟨-, -, inside⟩ := parameters?_eq_some_iff.1 found
    obtain ⟨types, rest, outcome, rfl, encodable, stops⟩ := exists_split inside
    have scanned := scanTypes_types encodable [] rest
    have stopped := stops.scanTypes_eq (encodeTypes types)
    rw [List.nil_append, List.nil_append, stopped] at scanned
    dsimp only
    rw [typesFrom_types encodable, stops.typesFrom_eq, Nat.add_comm]
    refine (congrArg (Except.map _) scanned).trans ?_
    cases outcome (byteLength (encodeTypes types) + 1) <;> rfl

end BranchSieve.Descriptor
