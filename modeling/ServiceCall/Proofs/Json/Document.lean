import ServiceCall.Proofs.Json.Spelling
import ServiceCall.Proofs.Json.Syntax
import ServiceCall.Proofs.Text.Utf8

/-!
# Documents

Which bytes are a document: they are characters, the characters spell tokens, and the tokens stand for a
value. Just these bytes are read, and each as its value.
-/

namespace ServiceCall.Json

/-- The bytes are a document of the value. No more containers stand in each other than a reader may have
open, and every number is in range. -/
inductive Document : Bytes → Json → Prop where
  | intro {cs : List Char} {ts : List Token} {v : Json} (spells : Spells cs ts)
      (derives : Derives Reader.maxDepth ts (.value v)) :
      Document (cs.flatMap String.utf8EncodeChar) v

/-- A text that stands for no characters is no part of a value. -/
theorem Derives.text_none_notMem {room : Nat} {ts : List Token} {p : Phrase}
    (h : Derives room ts p) : .text none ∉ ts := by
  induction h with
  | null | bool b | number inRange | text s | emptyArray | emptyObject => simp
  | array items ih | object members ih | firstMember name value ih => simpa using ih
  | firstItem value ih => exact ih
  | nextItem items value ihitems ihvalue | nextMember members name value ihitems ihvalue =>
    simp [ihitems, ihvalue]

theorem finish_eq_ok_iff {input : Input} :
    input.finish = .ok () ↔ input.tokens = [] ∧ input.ending = .complete := by
  simp only [Input.finish, List.isEmpty_iff]
  split
  · next h => exact iff_of_true rfl h
  · next h => exact iff_of_false nofun h

/-- A body is read if its tokens come to an end and are one value. -/
theorem read_eq_ok_iff_tokens {body : Bytes} {v : Json} : read body = .ok v ↔
    ∃ ts, lex body = (ts, .complete) ∧ Reader.run .strict .complete {} ts = .ok (v, []) := by
  rcases hlex : lex body with ⟨tokens, ending⟩
  rw [read, Input.ofBytes, hlex]
  constructor
  · intro h
    obtain ⟨⟨w, rest⟩, hvalue, h⟩ := bind_eq_ok.mp h
    obtain ⟨⟨x, left⟩, hrun, hrest⟩ := map_eq_ok.mp hvalue
    obtain ⟨_, hfinish, hw⟩ := bind_eq_ok.mp h
    obtain ⟨htokens, hending⟩ := finish_eq_ok_iff.mp hfinish
    cases hrest
    cases hw
    dsimp only at htokens hending hrun
    rw [htokens, hending] at hrun
    exact ⟨tokens, by rw [hending], hrun⟩
  · rintro ⟨ts, hts, hrun⟩
    cases hts
    rw [Input.value]
    dsimp only
    rw [hrun]
    rfl

/-- A body is read as a value just if it is a document of the value. -/
theorem read_eq_ok_iff {body : Bytes} {v : Json} : read body = .ok v ↔ Document body v := by
  rw [read_eq_ok_iff_tokens]
  constructor
  · rintro ⟨ts, hlex, hrun⟩
    have hderives := Reader.run_eq_ok_iff.mp hrun
    obtain ⟨cs, hunits, hspells⟩ :=
      (Lexer.run_eq_complete_iff hderives.text_none_notMem).mp hlex
    rw [Utf8.units_eq_map_some_iff.mp hunits]
    exact .intro hspells hderives
  · rintro ⟨hspells, hderives⟩
    refine ⟨_, ?_, Reader.run_eq_ok_iff.mpr hderives⟩
    rw [lex, Utf8.units_flatMap]
    exact Lexer.run_of_spells hspells

/-- A byte of no character between the quotes. -/
example (v : Json) : ¬ Document [0x22, 0xFF, 0x22] v := by
  rw [← read_eq_ok_iff]
  exact nofun

/-- A number beyond the greatest double. -/
example (v : Json) : ¬ Document (Utf8.encode "1e309") v := by
  rw [← read_eq_ok_iff]
  exact nofun

end ServiceCall.Json
