import ServiceCall.Text.Blank
import ServiceCall.Text.Folding
import ServiceCall.Url.Domain
import ServiceCall.Url.Punycode

/-!
# International names

The rules for international names that the program runs with. Labels with characters beyond ASCII are
folded to small letters and written in Punycode; a label that is in Punycode already must be what its
own text would be written as. Of the tables of these rules only the small letters and the full-width
forms of ASCII are here.
-/

namespace ServiceCall.Domain

/-- Characters beyond ASCII that are dropped. -/
def isDropped (c : Char) : Bool :=
  c.toNat == 0xAD || c.toNat == 0x200B || c.toNat == 0x2060 || c.toNat == 0xFEFF
    || (0xFE00 ≤ c.toNat && c.toNat ≤ 0xFE0F)

/-- Characters that separate labels. -/
def isDot (c : Char) : Bool :=
  c == '.' || c.toNat == 0x3002 || c.toNat == 0xFF0E || c.toNat == 0xFF61

/-- A character as it stands in a folded domain. -/
def fold (c : Char) : List Char :=
  if isDropped c then []
  else if isDot c then ['.']
  else if 0xFF01 ≤ c.toNat && c.toNat ≤ 0xFF5E then [(Char.ofNat (c.toNat - 0xFEE0)).toLower]
  else [Folding.lower c]

/-- A character beyond ASCII that a label may hold. -/
def isLabelChar (c : Char) : Bool :=
  0xA1 ≤ c.toNat && c.toNat < 0xE0000 && !Blank.isWide c
    && !(0x2000 ≤ c.toNat && c.toNat ≤ 0x206F)
    && !(0xE000 ≤ c.toNat && c.toNat ≤ 0xF8FF)
    && !(0xFFF0 ≤ c.toNat && c.toNat ≤ 0xFFFF)

/-- The mark of a label in Punycode. -/
def mark : List Char := ['x', 'n', '-', '-']

/-- The ASCII form of a folded label. -/
def label? (label : List Char) : Option (List Char) :=
  if label.all (·.toNat < 128) then
    if mark.isPrefixOf label then
      let ascii := label.drop 4
      match Punycode.decode? ascii with
      | some text =>
        -- the text must be one that this very label would be written for
        if text.any (128 ≤ ·.toNat) && text.all (fun c => c.toNat < 128 || isLabelChar c)
            && text.flatMap fold == text && Punycode.encode text == ascii
        then some label else none
      | none => none
    else some label
  else if mark.isPrefixOf label then none
  else if label.all (fun c => c.toNat < 128 || isLabelChar c) then
    some (mark ++ Punycode.encode label)
  else none

/-- The ASCII form of a domain. -/
def ascii? (domain : List Char) : Option (List Char) :=
  (((domain.flatMap fold).splitOn '.').mapM label?).map (List.intercalate ['.'])

instance : Idna := ⟨ascii?⟩

end ServiceCall.Domain
