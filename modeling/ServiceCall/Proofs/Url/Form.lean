import ServiceCall.Proofs.Text.Pieces
import ServiceCall.Proofs.Text.Utf8
import ServiceCall.Proofs.Url.Percent
import ServiceCall.Url.Form

/-!
# Pairs read back from a query

A query is read as a form: its pieces between ampersands are pairs of a name and a value around an
equals sign, in which a plus is a space and escapes are bytes. Pairs that are added to a query stand
behind those that it has, and none of these is changed.
-/

namespace ServiceCall

namespace Form

/-! ### Reading -/

/-- The sign with a plus read as a space. -/
def unplus (c : Char) : Char := if c = '+' then ' ' else c

/-- The text of a name or value. -/
def decodeText (cs : List Char) : String := Utf8.lossy (Percent.decode (cs.map unplus))

/-- The name and value of a piece; without an equals sign there is no value. -/
def readPair (piece : List Char) : String × String :=
  match Cut.atFirst? '=' piece with
  | some (name, value) => (decodeText name, decodeText value)
  | none => (decodeText piece, "")

/-- The pairs of a query. Empty pieces are no pairs. -/
def decode (query : List Char) : List (String × String) :=
  ((query.splitOn '&').filter (!·.isEmpty)).map readPair

/-! ### Bytes -/

theorem utf8EncodeChar_of_isPlain : ∀ n < 256, isPlain (UInt8.ofNat n) = true →
    String.utf8EncodeChar (Char.ofNat n) = [UInt8.ofNat n] := by decide +kernel

theorem ofNat_not_mem_of_isPlain : ∀ n < 256, isPlain (UInt8.ofNat n) = true →
    Char.ofNat n ∉ ['%', '+', '&', '='] := by decide +kernel

/-- A byte comes in one of three forms. -/
theorem byte_cases (b : UInt8) :
    (isPlain b = true ∧ byte b = [Char.ofNat b.toNat]) ∨ (b = 32 ∧ byte b = ['+'])
      ∨ byte b = Percent.byte b := by
  rw [byte]
  split
  · next hplain => exact .inl ⟨hplain, rfl⟩
  · split
    · next hspace => exact .inr (.inl ⟨beq_iff_eq.mp hspace, rfl⟩)
    · exact .inr (.inr rfl)

theorem map_unplus_byte (b : UInt8) : (Percent.byte b).map unplus = Percent.byte b := by
  have hself : ∀ c ∈ Percent.byte b, unplus c = c :=
    Percent.forall_mem_byte (by decide) (by decide) b
  rw [List.map_congr_left hself, List.map_id']

/-- A byte is read back from its form, whatever follows. -/
theorem decode_unplus_byte_append (b : UInt8) (rest : List Char) :
    Percent.decode ((byte b).map unplus ++ rest) = b :: Percent.decode rest := by
  rcases byte_cases b with ⟨hplain, hbyte⟩ | ⟨rfl, hbyte⟩ | hbyte
  · have hb : UInt8.ofNat b.toNat = b := UInt8.ofNat_toNat
    have hsigns := ofNat_not_mem_of_isPlain b.toNat b.toNat_lt (hb.symm ▸ hplain)
    have hchar := utf8EncodeChar_of_isPlain b.toNat b.toNat_lt (hb.symm ▸ hplain)
    simp only [List.mem_cons, not_or] at hsigns
    rw [hbyte, List.map_singleton, unplus, if_neg hsigns.2.1, List.singleton_append,
      Percent.decode_cons hsigns.1, hchar, hb, List.singleton_append]
  · rw [hbyte]
    exact Percent.decode_cons (by decide) rest
  · rw [hbyte, map_unplus_byte, Percent.decode_byte_append]

/-- The signs between names, values and pairs are in no name and no value. -/
theorem sign_not_mem_byte {sign : Char} (hsign : sign = '&' ∨ sign = '=') (b : UInt8) :
    sign ∉ byte b := by
  intro h
  rcases byte_cases b with ⟨hplain, hbyte⟩ | ⟨-, hbyte⟩ | hbyte
  · rw [hbyte, List.mem_singleton] at h
    have hb : UInt8.ofNat b.toNat = b := UInt8.ofNat_toNat
    have hsigns := ofNat_not_mem_of_isPlain b.toNat b.toNat_lt (hb.symm ▸ hplain)
    rw [← h] at hsigns
    rcases hsign with rfl | rfl <;> exact hsigns (by decide)
  · rw [hbyte, List.mem_singleton] at h
    subst h
    rcases hsign with h | h <;> cases h
  · have hne : ∀ c ∈ Percent.byte b, c ≠ sign := by
      apply Percent.forall_mem_byte
      · rcases hsign with rfl | rfl <;> decide
      · rcases hsign with rfl | rfl <;> decide
    rw [hbyte] at h
    exact hne sign h rfl

/-! ### Texts and pairs -/

theorem sign_not_mem_encode {sign : Char} (hsign : sign = '&' ∨ sign = '=') (s : String) :
    sign ∉ encode s := by
  intro h
  obtain ⟨b, -, hb⟩ := List.mem_flatMap.mp h
  exact sign_not_mem_byte hsign b hb

theorem decode_unplus_flatMap (bytes : Bytes) :
    Percent.decode ((bytes.flatMap byte).map unplus) = bytes := by
  induction bytes with
  | nil => rfl
  | cons b bytes ih => rw [List.flatMap_cons, List.map_append, decode_unplus_byte_append, ih]

/-- A name or value is read as the text that was written. -/
theorem decodeText_encode (s : String) : decodeText (encode s) = s := by
  rw [decodeText, encode, decode_unplus_flatMap, Utf8.lossy_encode]

theorem readPair_pair (name value : String) : readPair (pair name value) = (name, value) := by
  have hname : '=' ∉ encode name := sign_not_mem_encode (.inr rfl) name
  rw [readPair, pair, atFirst?_append_cons hname]
  dsimp only
  rw [decodeText_encode, decodeText_encode]

theorem decode_pair (name value : String) : decode (pair name value) = [(name, value)] := by
  have hsign : '&' ∉ pair name value := by
    simp [pair, sign_not_mem_encode]
  have hfilled : (pair name value).isEmpty = false := by
    simp [pair]
  rw [decode, List.splitOn_eq_singleton hsign, List.filter_cons_of_pos (by rw [hfilled]; rfl),
    List.filter_nil, List.map_singleton, readPair_pair]

/-- Pairs behind an ampersand stand behind those before it. -/
theorem decode_append (query more : List Char) :
    decode (query ++ '&' :: more) = decode query ++ decode more := by
  rw [decode, List.splitOn_append_cons_self, List.filter_append, List.map_append, ← decode, ← decode]

/-- The added pairs stand behind those of the query, in their order. -/
theorem decode_extend (query : List Char) (pairs : List (String × String)) :
    decode (extend query pairs) = decode query ++ pairs := by
  induction pairs generalizing query with
  | nil => exact (List.append_nil _).symm
  | cons p pairs ih =>
    obtain ⟨name, value⟩ := p
    rw [extend, List.foldl_cons, ← extend, ih]
    dsimp only
    split
    · next hempty =>
      rw [List.isEmpty_iff.mp hempty, decode_pair]
      rfl
    · rw [decode_append, decode_pair, List.append_assoc, List.singleton_append]

example : decode "a+b=%C3%A9&&c".toList = [("a b", "é"), ("c", "")] := by decide +kernel

end Form

namespace Url

/-- The pairs of the query; a URL without a query has none. -/
def pairs (u : Url) : List (String × String) := Form.decode (u.query.getD [])

theorem addPairs_nil (u : Url) : u.addPairs [] = u := rfl

/-- Adding pairs changes the query and nothing else. -/
theorem addPairs_eq (u : Url) (more : List (String × String)) :
    u.addPairs more = { u with query := (u.addPairs more).query } := by
  rw [addPairs]
  split <;> rfl

/-- There is no query exactly if there was none and no pair is added. -/
theorem query_addPairs_eq_none_iff {u : Url} {more : List (String × String)} :
    (u.addPairs more).query = none ↔ u.query = none ∧ more = [] := by
  rw [addPairs]
  split
  · next hempty => simp [List.isEmpty_iff.mp hempty]
  · next hfilled =>
    rw [List.isEmpty_iff] at hfilled
    simp [hfilled]

theorem pairs_addPairs (u : Url) (more : List (String × String)) :
    (u.addPairs more).pairs = u.pairs ++ more := by
  rw [addPairs]
  split
  · next hempty => rw [List.isEmpty_iff.mp hempty, List.append_nil]
  · rw [pairs, Option.getD_some, Form.decode_extend, ← pairs]

end Url

end ServiceCall
