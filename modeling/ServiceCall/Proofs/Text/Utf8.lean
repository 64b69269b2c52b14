import ServiceCall.Text.Utf8

/-!
# Text as bytes and back

The units of the bytes of a text are its characters, so the text can be read back from its bytes. Bytes
that are no text are read with replacements, which texts do not get.
-/

namespace ServiceCall.Utf8

theorem head?_utf8EncodeChar_append (c : Char) (rest : Bytes) :
    head? (String.utf8EncodeChar c ++ rest) = some c := by
  have hsize : (String.utf8EncodeChar c).length ≤ 4 := by
    rw [String.length_utf8EncodeChar]
    exact c.utf8Size_le_four
  rw [head?, List.take_append, List.take_of_length_le hsize, List.toByteArray_append]
  exact ByteArray.utf8DecodeChar?_utf8EncodeChar_append

theorem unitsFrom_append {skip : Nat} {bytes : Bytes} (h : bytes.length = skip) (rest : Bytes) :
    unitsFrom skip (bytes ++ rest) = unitsFrom 0 rest := by
  induction bytes generalizing skip with
  | nil =>
    rw [← h]
    rfl
  | cons b bytes ih =>
    rw [← h, List.length_cons, List.cons_append, unitsFrom]
    exact ih rfl

/-- The bytes of a character are one unit, whatever follows them. -/
theorem unitsFrom_utf8EncodeChar_append (c : Char) (rest : Bytes) :
    unitsFrom 0 (String.utf8EncodeChar c ++ rest) = some c :: unitsFrom 0 rest := by
  have hhead := head?_utf8EncodeChar_append c rest
  have hsize := String.length_utf8EncodeChar c
  cases hbytes : String.utf8EncodeChar c with
  | nil =>
    rw [hbytes, List.length_nil] at hsize
    exact absurd hsize (Nat.ne_of_lt c.utf8Size_pos)
  | cons b bytes =>
    rw [hbytes, List.cons_append] at hhead
    rw [hbytes, List.length_cons] at hsize
    rw [List.cons_append, unitsFrom, hhead]
    dsimp only
    rw [unitsFrom_append (by omega)]

theorem units_flatMap (cs : List Char) : units (cs.flatMap String.utf8EncodeChar) = cs.map some := by
  induction cs with
  | nil => rfl
  | cons c cs ih =>
    rw [List.flatMap_cons, units, unitsFrom_utf8EncodeChar_append, ← units, ih, List.map_cons]

/-- Bytes that start with a character start with its bytes. -/
theorem exists_of_head? {bytes : Bytes} {c : Char} (h : head? bytes = some c) :
    ∃ rest, bytes = String.utf8EncodeChar c ++ rest := by
  obtain ⟨more, hmore⟩ := ByteArray.exists_of_utf8DecodeChar?_eq_some h
  have hbytes : bytes.take 4 = String.utf8EncodeChar c ++ more.data.toList := by
    simpa using congrArg (fun b => b.data.toList) hmore
  refine ⟨more.data.toList ++ bytes.drop 4, ?_⟩
  rw [← List.append_assoc, ← hbytes, List.take_append_drop]

/-- Units without a stray byte are the characters of the bytes. -/
theorem units_eq_map_some_iff {bytes : Bytes} {cs : List Char} :
    units bytes = cs.map some ↔ bytes = cs.flatMap String.utf8EncodeChar := by
  constructor
  · intro h
    -- on the characters, since one of them can take several bytes
    induction cs generalizing bytes with
    | nil =>
      cases bytes with
      | nil => rfl
      | cons b bytes =>
        rw [units, unitsFrom] at h
        split at h <;> cases h
    | cons c cs ih =>
      cases bytes with
      | nil => cases h
      | cons b bytes =>
        cases hhead : head? (b :: bytes) with
        | none =>
          rw [units, unitsFrom, hhead] at h
          cases h
        | some d =>
          obtain ⟨rest, hrest⟩ := exists_of_head? hhead
          rw [hrest, units, unitsFrom_utf8EncodeChar_append, List.map_cons] at h
          obtain ⟨hd, htail⟩ := List.cons.inj h
          rw [hrest, ih htail, Option.some.inj hd, List.flatMap_cons]
  · rintro rfl
    exact units_flatMap cs
theorem chars?_map_some (cs : List Char) : chars? (cs.map some) = some cs := by
  induction cs with
  | nil => rfl
  | cons c cs ih => rw [List.map_cons, chars?, ih, Option.map_some]

/-- The bytes of a text are the text. -/
theorem decode?_encode (s : String) : decode? (encode s) = some s := by
  rw [decode?, encode, units_flatMap, chars?_map_some, Option.map_some, String.ofList_toList]

/-! ### Reading with replacements -/

/-- The byte can follow a first byte `first` in a character. -/
def follows (first b : UInt8) : Bool :=
  let low := if first == 0xE0 then 0xA0 else if first == 0xF0 then 0x90 else 0x80
  let high := if first == 0xED then 0x9F else if first == 0xF4 then 0x8F else 0xBF
  0xC2 ≤ first && first ≤ 0xF4 && low ≤ b && b ≤ high

/-- How many bytes at the head of a list that starts with no character are replaced together: as many
as a character can start with, and one at least. -/
def brokenWidth : Bytes → Nat
  | a :: b :: c :: _ => if !follows a b then 1 else if 0xF0 ≤ a && 0x80 ≤ c && c ≤ 0xBF then 3 else 2
  | [a, b] => if follows a b then 2 else 1
  | _ => 1

/-- The replacement of bytes that are no character. -/
def replacement : Char := Char.ofNat 0xFFFD

/-- The characters of a byte list whose first `skip` bytes have been read. -/
def lossyFrom : Nat → Bytes → List Char
  | _, [] => []
  | skip + 1, _ :: rest => lossyFrom skip rest
  | 0, b :: rest =>
    match head? (b :: rest) with
    | some c => c :: lossyFrom (c.utf8Size - 1) rest
    | none => replacement :: lossyFrom (brokenWidth (b :: rest) - 1) rest

/-- The text of any bytes. -/
def lossy (bytes : Bytes) : String := String.ofList (lossyFrom 0 bytes)

theorem lossyFrom_of_chars? {skip : Nat} {bytes : Bytes} {cs : List Char}
    (h : chars? (unitsFrom skip bytes) = some cs) : lossyFrom skip bytes = cs := by
  fun_induction unitsFrom skip bytes generalizing cs with
  | case1 skip =>
    cases h
    rw [lossyFrom]
  | case2 b rest skip ih => exact ih h
  | case3 b rest c hhead ih =>
    obtain ⟨tail, htail, rfl⟩ := Option.map_eq_some_iff.mp h
    rw [lossyFrom, hhead]
    exact congrArg _ (ih htail)
  | case4 b rest hhead ih => cases h

/-- Bytes of a text are read without replacement. -/
theorem lossy_encode (s : String) : lossy (encode s) = s := by
  obtain ⟨cs, hcs, hs⟩ := Option.map_eq_some_iff.mp (decode?_encode s)
  rw [lossy, lossyFrom_of_chars? hcs, hs]

end ServiceCall.Utf8
