import Mathlib.Data.List.Induction
import Mathlib.Data.List.TakeWhile
import ServiceCall.Proofs.Text.Trimming
import ServiceCall.Shape.Parser

/-!
# The grammar of type names

The type names that can be read, as a grammar: keywords, names of scalars, enumerations, containers
with their arguments in angle brackets, and beans, with blanks around every type.
-/

namespace ServiceCall

namespace Shape

/-- A letter from A to Z of either case, or an underscore. -/
def Letter (c : Char) : Prop := ('A' ≤ c ∧ c ≤ 'Z') ∨ ('a' ≤ c ∧ c ≤ 'z') ∨ c = '_'

/-- A digit from 0 to 9. -/
def Digit (c : Char) : Prop := '0' ≤ c ∧ c ≤ '9'

/-- A letter, and then letters and digits. -/
inductive Identifier : List Char → Prop where
  | mk {c : Char} {rest : List Char} (first : Letter c) (others : ∀ d ∈ rest, Letter d ∨ Digit d) :
      Identifier (c :: rest)

/-- The text is a name of the shape. A keyword or the name of a scalar is no name of a bean. -/
inductive Derives : List Char → Shape → Prop where
  | blankBefore {c : Char} {cs : List Char} {t : Shape} (blank : Blank.isWide c = true)
      (type : Derives cs t) : Derives (c :: cs) t
  | blankAfter {c : Char} {cs : List Char} {t : Shape} (blank : Blank.isWide c = true)
      (type : Derives cs t) : Derives (cs ++ [c]) t
  | void : Derives "void".toList .void
  | scalar (kind : ScalarKind) : Derives kind.name.toList (.scalar kind)
  | enumeration {name : List Char} (id : Identifier name) :
      Derives ("enum:".toList ++ name) (.enumeration (String.ofList name))
  | list {item : List Char} {t : Shape} (type : Derives item t) :
      Derives ("List<".toList ++ item ++ ['>']) (.list t)
  | optional {item : List Char} {t : Shape} (type : Derives item t) :
      Derives ("Optional<".toList ++ item ++ ['>']) (.optional t)
  | map {key value : List Char} {k v : Shape} (keyType : Derives key k)
      (valueType : Derives value v) :
      Derives ("Map<".toList ++ key ++ ',' :: value ++ ['>']) (.map k v)
  | bean {name : List Char} (id : Identifier name) (notVoid : name ≠ "void".toList)
      (notScalar : ∀ kind : ScalarKind, name ≠ kind.name.toList) :
      Derives name (.bean (String.ofList name))

/-! ### Characters of names -/

theorem isNameStart_iff {c : Char} : isNameStart c = true ↔ Letter c := by
  have hupper : c.isUpper = true ↔ 'A' ≤ c ∧ c ≤ 'Z' := decide_eq_true_iff
  have hlower : c.isLower = true ↔ 'a' ≤ c ∧ c ≤ 'z' := by
    rw [← decide_eq_true_iff (p := 'a' ≤ c), ← decide_eq_true_iff (p := c ≤ 'z'), ← Bool.and_eq_true]
    rfl
  have halpha : c.isAlpha = true ↔ c.isUpper = true ∨ c.isLower = true := by
    rw [← Bool.or_eq_true]
    rfl
  rw [isNameStart, Bool.or_eq_true, beq_iff_eq, halpha, hupper, hlower, Letter, or_assoc]

theorem isNameChar_iff {c : Char} : isNameChar c = true ↔ Letter c ∨ Digit c := by
  have hdigit : c.isDigit = true ↔ Digit c := by
    simp only [Char.isDigit, Digit, Bool.and_eq_true, decide_eq_true_eq, ge_iff_le]
    rfl
  have hstart := isNameStart_iff (c := c)
  simp only [isNameStart, Bool.or_eq_true] at hstart
  rw [← hstart, ← hdigit]
  simp only [isNameChar, Char.isAlphanum, Bool.or_eq_true]
  tauto

theorem isIdentifier_iff {cs : List Char} : isIdentifier cs = true ↔ Identifier cs := by
  constructor
  · intro h
    cases cs with
    | nil => simp [isIdentifier] at h
    | cons c rest =>
      simp only [isIdentifier, List.all_cons, Bool.and_eq_true, List.all_eq_true] at h
      obtain ⟨hfirst, -, hothers⟩ := h
      exact .mk (isNameStart_iff.mp hfirst) fun d hd => isNameChar_iff.mp (hothers d hd)
  · rintro ⟨hfirst, hothers⟩
    simp only [isIdentifier, List.all_cons, Bool.and_eq_true, List.all_eq_true]
    exact ⟨isNameStart_iff.mpr hfirst, isNameChar_iff.mpr (Or.inl hfirst),
      fun d hd => isNameChar_iff.mpr (hothers d hd)⟩

/-- Where letters, digits and the underscore stand among the characters. -/
theorem code_of_name {c : Char} (h : Letter c ∨ Digit c) : 48 ≤ c.toNat ∧ c.toNat ≤ 122 ∧
    c.toNat ≠ 60 ∧ c.toNat ≠ 62 := by
  simp only [Letter, Digit, Char.le_def, UInt32.le_iff_toNat_le] at h
  have hc : c.toNat = c.val.toNat := rfl
  have hA : 'A'.val.toNat = 65 := rfl
  have hZ : 'Z'.val.toNat = 90 := rfl
  have ha : 'a'.val.toNat = 97 := rfl
  have hz : 'z'.val.toNat = 122 := rfl
  have h0 : '0'.val.toNat = 48 := rfl
  have h9 : '9'.val.toNat = 57 := rfl
  rcases h with (h | h | rfl) | h
  · omega
  · omega
  · decide
  · omega

/-- The character is no blank, no bracket and no comma. -/
structure Plain (c : Char) : Prop where
  notBlank : Blank.isWide c = false
  notOpen : c ≠ '<'
  notClose : c ≠ '>'
  notComma : c ≠ ','

theorem plain_of_name {c : Char} (h : Letter c ∨ Digit c) : Plain c := by
  obtain ⟨hlow, hhigh, hopen, hclose⟩ := code_of_name h
  refine ⟨?_, ?_, ?_, ?_⟩
  · have hspace : c ≠ ' ' := by
      rintro rfl
      exact absurd hlow (by decide)
    simp only [Blank.isWide, Blank.wideRanges, Bool.or_eq_false_iff, beq_eq_false_iff_ne, ne_eq,
      hspace, not_false_eq_true, List.any_cons, List.any_nil, Bool.and_eq_false_iff,
      decide_eq_false_iff_not, true_and, and_true]
    omega
  · rintro rfl
    exact hopen rfl
  · rintro rfl
    exact hclose rfl
  · rintro rfl
    exact absurd hlow (by decide)

theorem Identifier.plain {name : List Char} (h : Identifier name) : ∀ c ∈ name, Plain c := by
  obtain ⟨hfirst, hothers⟩ := h
  intro c hc
  rcases List.mem_cons.mp hc with rfl | hc
  · exact plain_of_name (Or.inl hfirst)
  · exact plain_of_name (hothers c hc)

theorem Identifier.ne_nil {name : List Char} (h : Identifier name) : name ≠ [] := by
  cases h
  exact List.cons_ne_nil _ _

theorem Identifier.not_mem {name : List Char} {c : Char} (h : Identifier name)
    (hc : isNameChar c = false) : c ∉ name := by
  obtain ⟨hfirst, hothers⟩ := h
  intro hmem
  have hname : Letter c ∨ Digit c := by
    rcases List.mem_cons.mp hmem with rfl | hmem
    · exact Or.inl hfirst
    · exact hothers c hmem
  rw [← isNameChar_iff, hc] at hname
  exact Bool.false_ne_true hname

/-! ### Names of scalars -/

theorem ofName?_name (kind : ScalarKind) : ScalarKind.ofName? kind.name.toList = some kind := by
  cases kind <;> decide

theorem ofName?_eq_some_iff {cs : List Char} {kind : ScalarKind} :
    ScalarKind.ofName? cs = some kind ↔ cs = kind.name.toList := by
  refine ⟨fun h => ?_, fun h => h ▸ ofName?_name kind⟩
  have := List.find?_some h
  exact (eq_of_beq this).symm

theorem ofName?_eq_none_iff {cs : List Char} :
    ScalarKind.ofName? cs = none ↔ ∀ kind : ScalarKind, cs ≠ kind.name.toList := by
  rw [← Option.not_isSome_iff_eq_none, Option.isSome_iff_exists]
  simp only [ofName?_eq_some_iff, not_exists, ne_eq]

theorem plain_of_scalar {kind : ScalarKind} : ∀ c ∈ kind.name.toList, Plain c := by
  have hname : Identifier kind.name.toList := by
    rw [← isIdentifier_iff]
    cases kind <;> decide
  exact hname.plain

/-! ### Blanks -/

theorem tight_of_plain {cs : List Char} (h : ∀ c ∈ cs, Plain c) : Blank.Tight cs :=
  ⟨fun c hc => (h c (List.mem_of_mem_head? hc)).notBlank,
    fun c hc => (h c (List.mem_of_getLast? hc)).notBlank⟩

/-- Blanks on both sides of a type belong to it. -/
theorem Derives.pad {before cs after : List Char} {t : Shape} (h : Derives cs t)
    (hbefore : ∀ c ∈ before, Blank.isWide c = true) (hafter : ∀ c ∈ after, Blank.isWide c = true) :
    Derives (before ++ cs ++ after) t := by
  induction after using List.reverseRecOn with
  | nil =>
    rw [List.append_nil]
    induction before with
    | nil => exact h
    | cons c before ih =>
      exact .blankBefore (hbefore c List.mem_cons_self)
        (ih fun d hd => hbefore d (List.mem_cons_of_mem c hd))
  | append_singleton after c ih =>
    rw [← List.append_assoc]
    exact .blankAfter (hafter c (by simp)) (ih fun d hd => hafter d (by simp [hd]))

theorem Derives.of_trim {cs : List Char} {t : Shape} (h : Derives (Blank.trimChars cs) t) :
    Derives cs t := by
  have hblank (l : List Char) : ∀ c ∈ l.takeWhile Blank.isWide, Blank.isWide c = true :=
    fun c hc => List.mem_takeWhile_imp hc
  have hleft := List.takeWhile_append_dropWhile (p := Blank.isWide) (l := cs)
  have hright := List.takeWhile_append_dropWhile (p := Blank.isWide)
    (l := (cs.dropWhile Blank.isWide).reverse)
  rw [← hleft, ← List.reverse_reverse (cs.dropWhile Blank.isWide), ← hright, List.reverse_append,
    ← List.append_assoc]
  refine h.pad (hblank cs) fun c hc => ?_
  rw [List.mem_reverse] at hc
  exact hblank _ c hc

end Shape

end ServiceCall
