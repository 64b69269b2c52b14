import ServiceCall.Log.Line
import ServiceCall.Proofs.Text.Quoted

/-!
# Lines split at their blanks

The fields behind the pattern of a line can be read again: a field starts at a blank, its key ends
at the first equals sign, and its value at the next blank, or at its closing quote if it starts with
one. So no two lists of fields are written alike. A line is broken only at its end.
-/

namespace ServiceCall.Log

/-- A key that can stand in front of an equals sign. -/
structure IsKey (key : String) : Prop where
  notEmpty : key ≠ ""
  noBlank : ∀ c ∈ key.toList, Blank.isWide c = false
  noEquals : '=' ∉ key.toList
  noQuote : '"' ∉ key.toList

theorem isKey_iff {key : String} : IsKey key
    ↔ key ≠ "" ∧ key.toList.all (fun c => !Blank.isWide c && c != '=' && c != '"') = true := by
  simp only [List.all_eq_true, Bool.and_eq_true, Bool.not_eq_true', bne_iff_ne]
  constructor
  · rintro ⟨hempty, hblank, hequals, hquote⟩
    exact ⟨hempty, fun c hc => ⟨⟨hblank c hc, ne_of_mem_of_not_mem hc hequals⟩,
      ne_of_mem_of_not_mem hc hquote⟩⟩
  · rintro ⟨hempty, hchars⟩
    exact ⟨hempty, fun c hc => (hchars c hc).1.1, fun hc => (hchars _ hc).1.2 rfl,
      fun hc => (hchars _ hc).2 rfl⟩

instance : DecidablePred IsKey := fun _ => decidable_of_iff _ isKey_iff.symm

/-- The characters that start a new line. -/
def lineBreaks : List Char := ['\n', '\x0b', '\x0c', '\r', '\u0085', '\u2028', '\u2029']

/-- A character that starts a new line. -/
def IsLineBreak (c : Char) : Prop := c ∈ lineBreaks

instance : DecidablePred IsLineBreak := fun c => inferInstanceAs (Decidable (c ∈ lineBreaks))

/-- The text behind the pattern of a line, without styles. -/
def fieldsText (fields : List (String × String)) : List Char := plainChars (tailSpans fields none)

/-! ### A reader of fields -/

/-- Reads a value, and what follows it: a quoted text, or the characters up to the next blank. -/
def readValue : List Char → Option (List Char × List Char)
  | '"' :: rest => Quoted.read? rest
  | cs => some (cs.takeWhile (!Blank.isWide ·), cs.dropWhile (!Blank.isWide ·))

/-- Reads a key up to its equals sign, then a value, and what follows. -/
def readField (cs : List Char) : Option ((String × String) × List Char) := do
  let (key, rest) ← Cut.atFirst? '=' cs
  let (value, rest) ← readValue rest
  return ((String.ofList key, String.ofList value), rest)

theorem length_of_readValue {cs value rest : List Char} (h : readValue cs = some (value, rest)) :
    rest.length ≤ cs.length := by
  unfold readValue at h
  split at h
  · exact Nat.le_succ_of_le (Nat.le_of_lt (Quoted.length_of_readFrom h))
  · cases h
    exact (List.dropWhile_sublist _).length_le

theorem length_of_readField {cs rest : List Char} {field : String × String}
    (h : readField cs = some (field, rest)) : rest.length ≤ cs.length := by
  obtain ⟨⟨key, behind⟩, hkey, h⟩ := Option.bind_eq_some_iff.mp h
  obtain ⟨⟨value, after⟩, hvalue, h⟩ := Option.bind_eq_some_iff.mp h
  cases h
  have hsplit := congrArg List.length (eq_of_atFirst? hkey)
  have hle := length_of_readValue hvalue
  simp only [List.length_append, List.length_cons] at hsplit
  omega

/-- Reads fields up to the line break at the end. -/
def readFields (line : List Char) : Option (List (String × String)) :=
  match line with
  | ['\n'] => some []
  | ' ' :: rest =>
    match _h : readField rest with
    | some (field, behind) => (readFields behind).map (field :: ·)
    | none => none
  | _ => none
termination_by line.length
decreasing_by exact Nat.lt_succ_of_le (length_of_readField _h)

/-! ### Fields read back -/

/-- A field as it stands in a line. -/
def fieldChars (field : String × String) : List Char :=
  ' ' :: field.1.toList ++ '=' :: valueChars field.2.toList

theorem fieldsText_eq (fields : List (String × String)) :
    fieldsText fields = fields.flatMap fieldChars ++ ['\n'] := by
  have hfields : plainChars (fields.flatMap fieldSpans) = fields.flatMap fieldChars := by
    rw [plainChars, List.flatMap_assoc]
    congr 1
    funext field
    simp [fieldSpans, fieldChars, Span.chars]
  rw [fieldsText, tailSpans, failureSpans, List.append_nil, plainChars_append, hfields]
  rfl

theorem fieldsText_cons (field : String × String) (fields : List (String × String)) :
    fieldsText (field :: fields)
      = ' ' :: (field.1.toList ++ '=' :: (valueChars field.2.toList ++ fieldsText fields)) := by
  simp [fieldsText_eq, fieldChars]

/-- What follows a value is a blank. -/
theorem isWide_head_fieldsText (fields : List (String × String)) :
    ∀ c ∈ (fieldsText fields).head?, Blank.isWide c = true := by
  cases fields with
  | nil =>
    rintro c ⟨⟩
    decide
  | cons field fields =>
    rw [fieldsText_cons]
    rintro c ⟨⟩
    decide

theorem needsQuotes_eq_false_iff {value : List Char} :
    needsQuotes value = false
      ↔ value ≠ [] ∧ ∀ c ∈ value, Blank.isWide c = false ∧ c ≠ '"' := by
  simp [needsQuotes]

/-- A value is read up to a blank behind it. -/
theorem readValue_valueChars (value : List Char) {rest : List Char}
    (hrest : ∀ c ∈ rest.head?, Blank.isWide c = true) :
    readValue (valueChars value ++ rest) = some (value, rest) := by
  -- a quoted value ends by its quote, any other by the blank behind it
  cases hquotes : needsQuotes value with
  | true =>
    rw [valueChars, if_pos hquotes, Quoted.quoteChars]
    simp only [List.cons_append, List.append_assoc, List.nil_append, readValue]
    exact Quoted.read?_quoted value rest
  | false =>
    obtain ⟨hne, hplain⟩ := needsQuotes_eq_false_iff.mp hquotes
    have hsolid : ∀ c ∈ value, (!Blank.isWide c) = true := fun c hc => by rw [(hplain c hc).1]; rfl
    have hblank : ∀ c ∈ rest.head?, (!Blank.isWide c) = false := fun c hc => by rw [hrest c hc]; rfl
    obtain ⟨htake, hdrop⟩ := span_append (p := (!Blank.isWide ·)) hsolid hblank
    rw [valueChars, if_neg (by rw [hquotes]; exact Bool.false_ne_true)]
    obtain ⟨first, more, rfl⟩ := List.exists_cons_of_ne_nil hne
    have hfirst : first ≠ '"' := (hplain first List.mem_cons_self).2
    rw [List.cons_append] at htake hdrop ⊢
    unfold readValue
    split
    · next heq => exact absurd (List.cons.inj heq).1 hfirst
    · rw [htake, hdrop]

theorem readField_append {key : String} (hkey : IsKey key) (value : String) {rest : List Char}
    (hrest : ∀ c ∈ rest.head?, Blank.isWide c = true) :
    readField (key.toList ++ '=' :: (valueChars value.toList ++ rest))
      = some ((key, value), rest) := by
  simp [readField, atFirst?_append_cons hkey.noEquals, readValue_valueChars _ hrest]

/-- Fields are read back in their order. -/
theorem readFields_fieldsText {fields : List (String × String)} (hkeys : ∀ f ∈ fields, IsKey f.1) :
    readFields (fieldsText fields) = some fields := by
  induction fields with
  | nil =>
    have hend : fieldsText [] = ['\n'] := rfl
    rw [hend, readFields]
  | cons field fields ih =>
    obtain ⟨hkey, hrest⟩ := List.forall_mem_cons.mp hkeys
    rw [fieldsText_cons, readFields, readField_append hkey _ (isWide_head_fieldsText fields)]
    simp [ih hrest]

/-! ### Line breaks -/

theorem IsLineBreak.isWide {c : Char} (h : IsLineBreak c) : Blank.isWide c = true := by
  have hall : lineBreaks.all Blank.isWide = true := by decide
  exact List.all_eq_true.mp hall c h

theorem IsLineBreak.isHidden {c : Char} (h : IsLineBreak c) : Hidden.isHidden c = true := by
  have hall : lineBreaks.all Hidden.isHidden = true := by decide +kernel
  exact List.all_eq_true.mp hall c h

/-- A value that is quoted hides what breaks lines, any other value holds no blank. -/
theorem not_isLineBreak_of_mem_valueChars {value : List Char} :
    ∀ c ∈ valueChars value, ¬ IsLineBreak c := by
  intro c hc hbreak
  rw [valueChars] at hc
  split at hc
  · have hshown := Quoted.isHidden_of_mem_quoteChars c hc
    rw [hbreak.isHidden] at hshown
    cases hshown
  · next hquotes =>
    have hplain := (needsQuotes_eq_false_iff.mp (eq_false_of_ne_true hquotes)).2 c hc
    rw [hbreak.isWide] at hplain
    cases hplain.1

theorem not_isLineBreak_of_mem_fieldChars {field : String × String} (hkey : IsKey field.1) :
    ∀ c ∈ fieldChars field, ¬ IsLineBreak c := by
  intro c hc
  simp only [fieldChars, List.mem_append, List.mem_cons] at hc
  rcases hc with ((rfl | hc) | rfl | hc)
  · decide
  · intro hbreak
    have hplain := hkey.noBlank c hc
    rw [hbreak.isWide] at hplain
    cases hplain
  · decide
  · exact not_isLineBreak_of_mem_valueChars c hc

/-- Fields are written behind the pattern of a line. They are read back from there, no other fields
are written alike, and the line is broken nowhere in them but at its end. -/
theorem fields_read_back (p : Pattern) (date : String) (r : Record)
    (hkeys : ∀ f ∈ r.fields, IsKey f.1) :
    plainChars (lineSpans p date r none)
        = plainChars (Pattern.render date r p) ++ fieldsText r.fields
      ∧ readFields (fieldsText r.fields) = some r.fields
      ∧ (∀ other : List (String × String), (∀ f ∈ other, IsKey f.1) →
          fieldsText other = fieldsText r.fields → other = r.fields)
      ∧ ∃ before, fieldsText r.fields = before ++ ['\n'] ∧ ∀ c ∈ before, ¬ IsLineBreak c := by
  have hread := readFields_fieldsText hkeys
  refine ⟨plainChars_append _ _, hread, fun other hother heq => ?_, ?_⟩
  · rw [← heq, readFields_fieldsText hother] at hread
    exact Option.some.inj hread
  · refine ⟨r.fields.flatMap fieldChars, fieldsText_eq r.fields, fun c hc => ?_⟩
    obtain ⟨field, hfield, hc⟩ := List.mem_flatMap.mp hc
    exact not_isLineBreak_of_mem_fieldChars (hkeys field hfield) c hc

/-- A record with a value of several lines, an empty one, one with quotes and one with an equals
sign. -/
def sampleRecord : Record where
  level := .warn
  target := "client"
  message := "remote service error"
  fields := [("message", "not\u2028found\n"), ("empty", ""), ("said", "\"\\"), ("query", "a=b\\")]

theorem fields_read_back_sample :
    (∀ f ∈ sampleRecord.fields, IsKey f.1)
      ∧ plainChars (lineSpans .brief "" sampleRecord none)
        = "WARN client - remote service error".toList ++ fieldsText sampleRecord.fields
      ∧ fieldsText sampleRecord.fields
        = " message=\"not\\u\x7b2028\x7dfound\\n\" empty=\"\" said=\"\\\"\\\\\" query=a=b\\\n".toList
      ∧ readFields (fieldsText sampleRecord.fields) = some sampleRecord.fields := by
  have hkeys : ∀ f ∈ sampleRecord.fields, IsKey f.1 := by decide
  obtain ⟨hline, hread, -⟩ := fields_read_back .brief "" sampleRecord hkeys
  exact ⟨hkeys, hline, by decide +kernel, hread⟩

end ServiceCall.Log
