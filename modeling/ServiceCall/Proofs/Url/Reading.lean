import Mathlib.Data.List.TakeWhile
import ServiceCall.Proofs.Text.Letters
import ServiceCall.Proofs.Url.Authority
import ServiceCall.Proofs.Url.Segments

/-!
# URLs that have been read

What the parts of a URL are that comes from a text and has a path of segments, and where slashes stand
in the text of a web address: two behind the scheme, and one before each segment of the path.
-/

namespace ServiceCall.Url

variable {scheme : List Char}

/-! ### Schemes -/

/-- A scheme in small letters. -/
structure IsScheme (s : List Char) : Prop where
  head : ∃ c rest, s = c :: rest ∧ c.isAlpha = true
  chars : ∀ c ∈ s, isSchemeChar c = true ∧ c.toLower = c

theorem isSchemeChar_toLower {c : Char} (h : isSchemeChar c = true) :
    isSchemeChar c.toLower = true := by
  have hsame : ¬ c.isAlpha = true → c.toLower = c := by
    intro hother
    apply Char.toNat_inj.mp
    rw [toNat_toLower, if_neg fun hcapital => hother (isAlpha_iff.mpr (.inl hcapital))]
  by_cases halpha : c.isAlpha = true
  · simp [isSchemeChar, Char.isAlphanum, isAlpha_toLower halpha]
  · rwa [hsame halpha]

theorem isScheme_of_takeScheme? {cs rest : List Char} (h : takeScheme? cs = some (scheme, rest)) :
    IsScheme scheme := by
  rw [takeScheme?.eq_def] at h
  dsimp only at h
  split at h
  · split at h
    · cases h
    · next c tail htake =>
      split at h
      · next halpha =>
        cases h
        rw [htake]
        refine ⟨⟨c.toLower, tail.map Char.toLower, rfl, isAlpha_toLower halpha⟩, fun x hx => ?_⟩
        obtain ⟨d, hd, rfl⟩ := List.mem_map.mp hx
        have hchar : isSchemeChar d = true := by
          rw [← htake] at hd
          exact List.mem_takeWhile_imp hd
        exact ⟨isSchemeChar_toLower hchar, toLower_toLower d⟩
      · cases h
  · cases h

/-! ### The parts of a URL -/

/-- What can stand between a scheme and a path of segments. -/
inductive IsLead [Idna] (scheme : List Char) : Option Authority → Prop where
  | network {a : Authority} (hkind : schemeKind scheme ≠ .file) (ha : a.Settled scheme) :
    IsLead scheme (some a)
  | file {host : Host} (hkind : schemeKind scheme = .file)
    (hhost : host = .name [] ∨ host.Settled true) : IsLead scheme (some { host })
  | bare (hkind : schemeKind scheme = .other) : IsLead scheme none

/-- A URL as reading gives it, with a path of segments. -/
structure Settled [Idna] (u : Url) (items : List (List Char)) : Prop where
  scheme : IsScheme u.scheme
  lead : IsLead u.scheme u.authority
  path : u.path = .segments items
  segmented : Segmented (schemeKind u.scheme) items
  filled : (schemeKind u.scheme).isSpecial = true ∨ u.authority = none → items ≠ []

theorem settled_of_readNetwork [Idna] {cs : List Char} {u : Url} (hscheme : IsScheme scheme)
    (hkind : schemeKind scheme ≠ .file) (h : readNetwork scheme cs = .ok u) :
    ∃ items, u.Settled items := by
  rw [readNetwork] at h
  obtain ⟨⟨a, rest⟩, ha, h⟩ := bind_eq_ok.mp h
  cases h
  obtain ⟨items, hpath, hsegmented, hfilled⟩ := exists_readPath (schemeKind scheme)
    (splitTail (rest ++ cs.dropWhile (!endsAuthority (schemeKind scheme) ·))).1
  exact ⟨items, hscheme, .network hkind (settled_of_readAuthority ha), hpath, hsegmented,
    fun h => hfilled (h.resolve_right (Option.some_ne_none a))⟩

theorem settled_of_readFileHost [Idna] {cs : List Char} {host : Host} (h : readFileHost cs = .ok host) :
    host = .name [] ∨ host.Settled true := by
  rw [readFileHost] at h
  split at h
  · cases h
    exact .inl rfl
  · obtain ⟨own, hown, rfl⟩ := map_eq_ok.mp h
    split
    · exact .inl rfl
    · exact .inr (Host.settled_of_parse hown)

/-- A file with its host, which a drive at the head of the path takes away. -/
theorem settled_of_file [Idna] {host : Host} (hscheme : IsScheme scheme)
    (hkind : schemeKind scheme = .file) (hhost : host = .name [] ∨ host.Settled true)
    (path : List Char) (query fragment : Option (List Char)) :
    (assemble scheme
      (some { host := if ((readSegments .file path).head?.map isDrive).getD false then .name []
        else host }) (.segments (readSegments .file path)) query fragment).Settled
      (readSegments .file path) := by
  refine ⟨hscheme, .file hkind ?_, rfl, ?_, fun _ => readSegments_ne_nil .file path⟩
  · split
    · exact .inl rfl
    · exact hhost
  · show Segmented (schemeKind scheme) _
    rw [hkind]
    exact segmented_readSegments .file path

theorem settled_of_readFile [Idna] {cs : List Char} {u : Url} (hscheme : IsScheme scheme)
    (hkind : schemeKind scheme = .file) (h : readFile scheme cs = .ok u) :
    ∃ items, u.Settled items := by
  rw [readFile] at h
  dsimp only at h
  -- behind two slashes stands a host or a drive, behind one or none there is no host
  split at h
  · split at h
    · split at h
      · cases h
        exact ⟨_, settled_of_file hscheme hkind (.inl rfl) _ _ _⟩
      · obtain ⟨host, hhost, h⟩ := bind_eq_ok.mp h
        cases h
        exact ⟨_, settled_of_file hscheme hkind (settled_of_readFileHost hhost) _ _ _⟩
    · split at h
      · cases h
        exact ⟨_, settled_of_file hscheme hkind (.inl rfl) _ _ _⟩
      · cases h
        exact ⟨_, settled_of_file hscheme hkind (.inl rfl) _ _ _⟩
  · cases h
    exact ⟨_, settled_of_file hscheme hkind (.inl rfl) _ _ _⟩
  · cases h
    exact ⟨_, settled_of_file hscheme hkind (.inl rfl) _ _ _⟩

theorem settled_of_readOther [Idna] {cs : List Char} {u : Url} (hscheme : IsScheme scheme)
    (hkind : schemeKind scheme = .other) (h : readOther scheme cs = .ok u)
    (hpath : u.isOpaque = false) : ∃ items, u.Settled items := by
  rw [readOther.eq_def] at h
  split at h
  · exact settled_of_readNetwork hscheme (by simp [hkind]) h
  · dsimp only at h
    split at h
    · cases h
      refine ⟨_, hscheme, .bare hkind, rfl, ?_, fun _ => readSegments_ne_nil .other _⟩
      show Segmented (schemeKind scheme) _
      rw [hkind]
      exact segmented_readSegments .other _
    · cases h
      cases hpath

/-- Whatever is read has its parts as they stand in a text. -/
theorem settled_of_parse [Idna] {text : String} {u : Url} (h : parse text = .ok u)
    (hpath : u.isOpaque = false) : ∃ items, u.Settled items := by
  rw [parse, parseChars] at h
  split at h
  · cases h
  · next scheme rest hscheme =>
    have hscheme := isScheme_of_takeScheme? hscheme
    split at h
    · next hkind => exact settled_of_readNetwork hscheme (by simp [hkind]) h
    · next hkind => exact settled_of_readFile hscheme hkind h
    · next hkind => exact settled_of_readOther hscheme hkind h hpath

/-- A path that is extended stays one that can stand in a text. -/
theorem Settled.extend [Idna] {u : Url} {items : List (List Char)} (h : u.Settled items)
    (texts : List (List Char)) :
    ({ u with path := .segments (texts.foldl (pushSegment (schemeKind u.scheme))
      (dropEmptyEnd items)) } : Url).Settled
      (texts.foldl (pushSegment (schemeKind u.scheme)) (dropEmptyEnd items)) := by
  refine ⟨h.scheme, h.lead, rfl, h.segmented.dropEmptyEnd.foldl_pushSegment texts, fun hlead => ?_⟩
  exact foldl_pushSegment_ne_nil (dropEmptyEnd_ne_nil (h.filled hlead)) texts

/-! ### The segments in the text -/

/-- What stands behind the slashes of the path in the text of a web address. -/
def pathSegments (uri : String) : List (List Char) := (uri.toList.splitOn '/').drop 3

theorem Settled.exists_authority [Idna] {u : Url} {items : List (List Char)} (hu : u.Settled items)
    (hweb : schemeKind u.scheme = .web) : ∃ a, u.authority = some a ∧ a.Settled u.scheme := by
  have hlead := hu.lead
  generalize u.authority = authority at hlead ⊢
  cases hlead with
  | network _ ha => exact ⟨_, rfl, ha⟩
  | file hkind => exact absurd (hweb.symm.trans hkind) (by decide)
  | bare hkind => exact absurd (hweb.symm.trans hkind) (by decide)

/-- The path of a web address without query and fragment is found again in its text. -/
theorem pathSegments_text [Idna] {u : Url} {items : List (List Char)} (hu : u.Settled items)
    (hweb : schemeKind u.scheme = .web) (hquery : u.query = none) (hfragment : u.fragment = none) :
    pathSegments u.text = items := by
  obtain ⟨a, hauthority, ha⟩ := hu.exists_authority hweb
  have hchars : u.chars
      = (u.scheme ++ [':']) ++ '/' :: ([] ++ '/' :: (a.chars ++ segmentsChars items)) := by
    simp [chars, lead, hauthority, hu.path, hquery, hfragment, behind, Path.chars]
  have hopening : '/' ∉ u.scheme ++ [':'] := by
    rw [List.mem_append, List.mem_singleton, not_or]
    exact ⟨fun h => absurd (hu.scheme.chars _ h).1 (by decide), by decide⟩
  have hname : '/' ∉ a.chars := fun h => absurd (ha.isAuthorityChar_chars _ h) (by decide)
  rw [pathSegments, text, String.toList_ofList, hchars,
    List.splitOn_append_cons_self_of_not_mem hopening,
    List.splitOn_append_cons_self_of_not_mem List.not_mem_nil,
    splitOn_segmentsChars hname hu.segmented.slash_not_mem]
  rfl

example : pathSegments "http://localhost/user/7" = ["user".toList, "7".toList] := by rfl

end ServiceCall.Url
