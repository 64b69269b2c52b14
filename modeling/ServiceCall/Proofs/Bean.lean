import ServiceCall.Bean
import ServiceCall.Proofs.Json.Printing

/-!
# Beans that come back

A bean that goes into a body comes back from it as it was, whatever type is declared for the response,
as long as that type has a value at all. No such body counts as empty.
-/

namespace ServiceCall.Bean

open Json (Exact)

/-- The text of a body does not start with a blank. -/
def StartsSolid (cs : List Char) : Prop :=
  ∃ c rest, cs = c :: rest ∧ (String.utf8EncodeChar c).all Blank.isAsciiByte = false

theorem isBlankBody_encode {s : String} (h : StartsSolid s.toList) :
    isBlankBody (Utf8.encode s) = false := by
  obtain ⟨c, rest, hs, hc⟩ := h
  rw [isBlankBody, Utf8.encode, hs, List.flatMap_cons, List.all_append, hc, Bool.false_and]

theorem startsSolid_characters (n : Nat) : StartsSolid (DecimalDigits.characters n) := by
  have hdigit : ∀ d < 10, (String.utf8EncodeChar (Nat.digitChar d)).all Blank.isAsciiByte = false := by
    decide
  rw [DecimalDigits.characters]
  induction n using toDigits_induction (show 1 < 10 by decide) with
  | digit d hd => exact ⟨_, [], rfl, hdigit d hd⟩
  | more n d _ _ ih =>
    obtain ⟨c, rest, hdigits, hc⟩ := ih
    exact ⟨c, rest ++ [Nat.digitChar d], by rw [hdigits, List.cons_append], hc⟩

theorem startsSolid_compact {v : Json} (hv : Exact v) : StartsSolid (Json.Printer.compact v) := by
  cases hv with
  | null => exact ⟨_, _, rfl, by decide⟩
  | bool b => cases b <;> exact ⟨_, _, rfl, by decide⟩
  | text s => exact ⟨_, _, rfl, by decide⟩
  | array items _ => exact ⟨_, _, rfl, by decide⟩
  | object members _ _ => exact ⟨_, _, rfl, by decide⟩
  | whole n =>
    rw [Json.Printer.compact, Json.Number.text, Json.intText]
    split
    · exact ⟨_, _, rfl, by decide⟩
    · exact startsSolid_characters _

/-- The body of a bean without fractions is not empty. -/
theorem isBlankBody_encodeBody {v : Json} (hv : Exact v) :
    isBlankBody (encodeBody v).bytes = false := by
  refine isBlankBody_encode ?_
  rw [Json.compact, String.toList_ofList]
  exact startsSolid_compact hv

theorem body_encodeBody {v : Json} (hv : Exact v) (hdepth : v.depth ≤ 127) :
    Json.Decoder.any.body (encodeBody v).bytes = .ok v := by
  rw [Json.Decoder.body, Json.Decoder.any, encodeBody, Json.value_ofBytes_compact hv hdepth]
  rfl

/-- A bean without fractions comes back from its body as it was, by any type but the one without
values, and its body never counts as empty. -/
theorem decode_encodeBody {v : Json} {shape : Shape} (hv : Exact v) (hdepth : v.depth ≤ 127)
    (hshape : shape ≠ .void) : isBlankBody (encodeBody v).bytes = false
      ∧ decode Json.Decoder.any (encodeBody v).bytes shape = .ok v := by
  have hblank := isBlankBody_encodeBody hv
  have hbody := body_encodeBody hv hdepth
  refine ⟨hblank, ?_⟩
  cases shape with
  | void => exact absurd rfl hshape
  | scalar kind | enumeration name | bean name | list item | optional item | map key item =>
    simp [decode, hblank, hbody]

/-- An order with the greatest number, a note with a quote, a line break and a control, and marks of
several kinds. -/
def sampleOrder : Json := .object [("id", .number (.whole ⟨2 ^ 64 - 1, by decide, by decide⟩)),
  ("note", .text "\"a\"\n\x01é"), ("marks", .array [.null, .bool true, .array [],
    .number (.whole ⟨-2 ^ 63, by decide, by decide⟩)])]

theorem exact_sampleOrder : Exact sampleOrder := by
  refine .object _ (by decide) ?_
  simp only [List.mem_cons, List.not_mem_nil, or_false]
  rintro _ (rfl | rfl | rfl)
  · exact .whole _
  · exact .text _
  · refine .array _ ?_
    simp only [List.mem_cons, List.not_mem_nil, or_false]
    rintro _ (rfl | rfl | rfl | rfl)
    · exact .null
    · exact .bool true
    · exact .array _ nofun
    · exact .whole _

/-- The order comes back as an optional one. -/
theorem decode_encodeBody_order : Exact sampleOrder ∧ sampleOrder.depth ≤ 127
    ∧ Shape.optional (.bean "Order") ≠ .void
    ∧ decode Json.Decoder.any (encodeBody sampleOrder).bytes (.optional (.bean "Order"))
      = .ok sampleOrder := by
  have hdepth : sampleOrder.depth ≤ 127 := by decide
  have hshape : Shape.optional (.bean "Order") ≠ .void := nofun
  exact ⟨exact_sampleOrder, hdepth, hshape, (decode_encodeBody exact_sampleOrder hdepth hshape).2⟩

end ServiceCall.Bean
