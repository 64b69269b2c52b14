import ServiceCall.Proofs.Text.Pieces
import ServiceCall.Proofs.Url.Path
import ServiceCall.Url.Parser

/-!
# Paths read back

Whatever is done to a path, its segments stay escaped, without slashes and without dots that would
count. So reading the text of a path finds the same segments, with nothing to escape and nothing to
resolve.
-/

namespace ServiceCall.Url

variable {kind : SchemeKind} {items : List (List Char)}

/-! ### Segments -/

/-- The text can stand for itself as a segment of a path. -/
structure IsSegment (kind : SchemeKind) (s : List Char) : Prop where
  chars : ∀ c ∈ s, Percent.inPath c = false ∧ isSlash kind c = false
  one : isDot s = false
  two : isDotDot s = false

/-- Every part of the path can stand for itself. -/
def Segmented (kind : SchemeKind) (items : List (List Char)) : Prop := ∀ s ∈ items, IsSegment kind s

theorem isSegment_nil : IsSegment kind [] := ⟨fun _ h => absurd h List.not_mem_nil, rfl, rfl⟩

theorem segmented_singleton {s : List Char} (h : IsSegment kind s) : Segmented kind [s] := by
  intro t ht
  rwa [List.mem_singleton.mp ht]

theorem Segmented.append {more : List (List Char)} (h : Segmented kind items)
    (hmore : Segmented kind more) : Segmented kind (items ++ more) := by
  intro s hs
  rcases List.mem_append.mp hs with hs | hs
  · exact h s hs
  · exact hmore s hs

theorem Segmented.concat_nil (h : Segmented kind items) : Segmented kind (items ++ [[]]) :=
  h.append (segmented_singleton isSegment_nil)

theorem Segmented.slash_not_mem (h : Segmented kind items) : ∀ s ∈ items, '/' ∉ s :=
  fun s hs hslash => absurd ((h s hs).chars _ hslash).2 (by simp [isSlash])

/-! ### What is done to a path -/

theorem Segmented.dropSegment (h : Segmented kind items) : Segmented kind (dropSegment items) := by
  intro s hs
  rw [Url.dropSegment] at hs
  split at hs
  · split at hs
    · exact h s hs
    · exact h s (List.dropLast_subset items hs)
  · exact h s hs

/-- A drive is a segment, with a colon for its bar too. -/
theorem isSegment_drive {s : List Char} (hdrive : isDrive s = true) (h : IsSegment kind s) :
    IsSegment kind (s.take 1 ++ [':']) := by
  rw [isDrive.eq_def] at hdrive
  split at hdrive
  · next c sign =>
    refine ⟨fun x hx => ?_, ?_, ?_⟩
    · simp only [List.take_succ_cons, List.take_zero, List.singleton_append, List.mem_cons,
        List.not_mem_nil, or_false] at hx
      rcases hx with rfl | rfl
      · exact h.chars _ List.mem_cons_self
      · exact ⟨by decide, by simp [isSlash]⟩
    · simp [isDot]
    · simp [isDotDot]
  · cases hdrive

theorem IsSegment.keepSegment {done : List (List Char)} {s : List Char} (h : IsSegment kind s) :
    IsSegment kind (keepSegment kind done s) := by
  rw [Url.keepSegment]
  split
  · next hdrive => exact isSegment_drive hdrive.2.2 h
  · exact h

/-- Dots leave a path of segments, whatever they take away. -/
theorem segmented_resolveDots {done pieces : List (List Char)} (hdone : Segmented kind done)
    (hpieces : ∀ s ∈ pieces, isDotDot s = false → isDot s = false → IsSegment kind s) :
    Segmented kind (resolveDots kind done pieces) := by
  fun_induction resolveDots kind done pieces with
  | case1 done => exact hdone
  | case2 done s htwo => exact hdone.dropSegment.concat_nil
  | case3 done s htwo hone => exact hdone.concat_nil
  | case4 done s htwo hone =>
    have hs := hpieces s List.mem_cons_self (Bool.eq_false_iff.mpr htwo) (Bool.eq_false_iff.mpr hone)
    exact hdone.append (segmented_singleton hs.keepSegment)
  | case5 done s t rest htwo ih =>
    exact ih hdone.dropSegment fun p hp => hpieces p (List.mem_cons_of_mem _ hp)
  | case6 done s t rest htwo hone ih =>
    exact ih hdone fun p hp => hpieces p (List.mem_cons_of_mem _ hp)
  | case7 done s t rest htwo hone ih =>
    have hs := hpieces s List.mem_cons_self (Bool.eq_false_iff.mpr htwo) (Bool.eq_false_iff.mpr hone)
    exact ih (hdone.append (segmented_singleton hs.keepSegment))
      fun p hp => hpieces p (List.mem_cons_of_mem _ hp)

theorem resolveDots_ne_nil {done pieces : List (List Char)} (h : pieces ≠ []) :
    resolveDots kind done pieces ≠ [] := by
  fun_induction resolveDots kind done pieces with
  | case1 done => exact absurd rfl h
  | case2 done s htwo => simp
  | case3 done s htwo hone => simp
  | case4 done s htwo hone => simp
  | case5 done s t rest htwo ih => exact ih (List.cons_ne_nil t rest)
  | case6 done s t rest htwo hone ih => exact ih (List.cons_ne_nil t rest)
  | case7 done s t rest htwo hone ih => exact ih (List.cons_ne_nil t rest)

theorem Segmented.trimFile (h : Segmented kind items) : Segmented kind (trimFile kind items) := by
  rw [Url.trimFile]
  split
  · split
    · exact segmented_singleton isSegment_nil
    · exact fun s hs => h s ((List.dropWhile_sublist _).subset hs)
  · exact h

theorem trimFile_ne_nil (h : items ≠ []) : trimFile kind items ≠ [] := by
  rw [trimFile]
  split
  · split
    · exact List.cons_ne_nil _ _
    · next hrest => exact fun hnil => hrest hnil
  · exact h

theorem Segmented.dropEmptyEnd (h : Segmented kind items) : Segmented kind (dropEmptyEnd items) := by
  intro s hs
  rw [Url.dropEmptyEnd] at hs
  split at hs
  · exact h s (List.dropLast_subset items hs)
  · exact h s hs

theorem dropEmptyEnd_ne_nil (h : items ≠ []) : dropEmptyEnd items ≠ [] := by
  rw [dropEmptyEnd]
  split
  · next hends =>
    intro hnil
    have hlength := congrArg List.length hnil
    rw [List.length_dropLast, List.length_nil] at hlength
    omega
  · exact h

/-! ### Reading a path -/

/-- No piece of a path holds a sign that ends a segment. -/
theorem isSlash_of_mem_splitSegments {cs piece : List Char} (h : piece ∈ splitSegments kind cs) :
    ∀ c ∈ piece, isSlash kind c = false := by
  intro c hc
  obtain ⟨d, -, hd⟩ := List.mem_map.mp (mem_of_mem_splitOn h hc)
  split at hd
  · rw [← hd] at hc
    exact absurd hc (not_mem_of_mem_splitOn h)
  · next hslash => exact hd ▸ Bool.eq_false_iff.mpr hslash

theorem segmented_readSegments (kind : SchemeKind) (cs : List Char) :
    Segmented kind (readSegments kind cs) := by
  have hnone : Segmented kind [] := fun _ h => absurd h List.not_mem_nil
  refine (segmented_resolveDots hnone fun s hs htwo hone => ⟨?_, hone, htwo⟩).trimFile
  obtain ⟨piece, hpiece, rfl⟩ := List.mem_map.mp hs
  apply Percent.forall_mem_encode
  · cases kind <;> decide
  · cases kind <;> decide
  · exact fun c hc hset => ⟨hset, isSlash_of_mem_splitSegments hpiece c hc⟩

theorem readSegments_ne_nil (kind : SchemeKind) (cs : List Char) : readSegments kind cs ≠ [] := by
  apply trimFile_ne_nil
  apply resolveDots_ne_nil
  rw [ne_eq, List.map_eq_nil_iff]
  exact List.splitOn_ne_nil _ _

theorem exists_readPath (kind : SchemeKind) (cs : List Char) :
    ∃ items, readPath kind cs = .segments items ∧ Segmented kind items
      ∧ (kind.isSpecial = true → items ≠ []) := by
  cases cs with
  | nil =>
    refine ⟨_, rfl, ?_, fun hspecial => by simp [hspecial]⟩
    split
    · exact segmented_singleton isSegment_nil
    · exact fun _ h => absurd h List.not_mem_nil
  | cons c rest =>
    exact ⟨_, rfl, segmented_readSegments kind _, fun _ => readSegments_ne_nil kind _⟩

/-! ### Adding segments -/

theorem free_of_segmentSet {c : Char} (h : segmentSet kind c = false) :
    Percent.inPath c = false ∧ isSlash kind c = false := by
  rw [segmentSet] at h
  split at h
  · simp only [Percent.inSpecialSegment, Percent.inSegment, Bool.or_eq_false_iff] at h
    simp [isSlash, h]
  · next hplain =>
    simp only [Percent.inSegment, Bool.or_eq_false_iff] at h
    simp [isSlash, h, hplain]

/-- A segment that is added is escaped, whatever its text. -/
theorem Segmented.pushSegment (h : Segmented kind items) (text : List Char) :
    Segmented kind (pushSegment kind items text) := by
  rw [Url.pushSegment]
  split
  · exact h
  have hbase : Segmented kind (if items = [[]] then [] else items) := by
    split
    · exact fun _ h => absurd h List.not_mem_nil
    · exact h
  refine (segmented_resolveDots hbase fun s hs htwo hone => ⟨?_, hone, htwo⟩).trimFile
  rw [List.mem_singleton.mp hs]
  apply Percent.forall_mem_encode
  · cases kind <;> decide
  · cases kind <;> decide
  · exact fun c _ hset => free_of_segmentSet hset

theorem pushSegment_ne_nil (h : items ≠ []) (text : List Char) : pushSegment kind items text ≠ [] := by
  rw [pushSegment]
  split
  · exact h
  · exact trimFile_ne_nil (resolveDots_ne_nil (List.cons_ne_nil _ _))

theorem Segmented.foldl_pushSegment (h : Segmented kind items) (texts : List (List Char)) :
    Segmented kind (texts.foldl (Url.pushSegment kind) items) := by
  induction texts generalizing items with
  | nil => exact h
  | cons text texts ih => exact ih (h.pushSegment text)

theorem foldl_pushSegment_ne_nil (h : items ≠ []) (texts : List (List Char)) :
    texts.foldl (pushSegment kind) items ≠ [] := by
  induction texts generalizing items with
  | nil => exact h
  | cons text texts ih => exact ih (pushSegment_ne_nil h text)

/-! ### Reading a path again -/

theorem keepSegment_of_ne_file (hkind : kind ≠ .file) (done : List (List Char)) (s : List Char) :
    keepSegment kind done s = s := by
  rw [keepSegment, if_neg fun h => hkind h.1]

/-- Between segments there is nothing to resolve. -/
theorem resolveDots_segmented (hkind : kind ≠ .file) (h : Segmented kind items)
    (done : List (List Char)) : resolveDots kind done items = done ++ items := by
  induction items generalizing done with
  | nil => rw [resolveDots, List.append_nil]
  | cons s items ih =>
    obtain ⟨hs, hitems⟩ := List.forall_mem_cons.mp h
    cases items with
    | nil => simp [resolveDots, hs.one, hs.two, keepSegment_of_ne_file hkind]
    | cons t rest =>
      rw [resolveDots, hs.two, hs.one, keepSegment_of_ne_file hkind, if_neg (by decide),
        if_neg (by decide), ih hitems, List.append_assoc, List.singleton_append]

theorem splitSegments_segmentsChars {s : List Char}
    (h : ∀ t ∈ s :: items, ∀ c ∈ t, isSlash kind c = false) :
    splitSegments kind (s ++ segmentsChars items) = s :: items := by
  have hslash : ∀ t ∈ s :: items, '/' ∉ t := fun t ht hc => by simpa [isSlash] using h t ht '/' hc
  obtain ⟨hs, hitems⟩ := List.forall_mem_cons.mp h
  have hkeep : (s ++ segmentsChars items).map (fun c => if isSlash kind c then '/' else c)
      = s ++ segmentsChars items := by
    have hsame : ∀ c ∈ s ++ segmentsChars items, (if isSlash kind c then '/' else c) = c := by
      intro c hc
      split
      · next hsep =>
        rcases List.mem_append.mp hc with hc | hc
        · exact absurd (hs c hc) (by simp [hsep])
        · obtain ⟨t, ht, hc⟩ := List.mem_flatMap.mp hc
          rcases List.mem_cons.mp hc with rfl | hc
          · rfl
          · exact absurd (hitems t ht c hc) (by simp [hsep])
      · rfl
    exact (List.map_congr_left hsame).trans (List.map_id _)
  rw [splitSegments, hkeep]
  exact splitOn_segmentsChars (hslash s List.mem_cons_self)
    fun i hi => hslash i (List.mem_cons_of_mem s hi)

theorem map_encode_segmented (h : Segmented kind items) :
    items.map (Percent.encode Percent.inPath) = items := by
  have hsame : ∀ s ∈ items, Percent.encode Percent.inPath s = s :=
    fun s hs => Percent.encode_eq_self fun c hc => ((h s hs).chars c hc).1
  exact (List.map_congr_left hsame).trans (List.map_id _)

theorem Segmented.isSlash (h : Segmented kind items) :
    ∀ s ∈ items, ∀ c ∈ s, isSlash kind c = false :=
  fun s hs c hc => ((h s hs).chars c hc).2

/-- The segments of a path are read back from its text. -/
theorem readSegments_segmentsChars (hkind : kind ≠ .file) {s : List Char}
    (h : Segmented kind (s :: items)) : readSegments kind (s ++ segmentsChars items) = s :: items := by
  rw [readSegments, splitSegments_segmentsChars h.isSlash, map_encode_segmented h,
    resolveDots_segmented hkind h, List.nil_append, trimFile, if_neg hkind]

/-- A dot before a path changes nothing. -/
theorem readSegments_dot (hkind : kind ≠ .file) {s : List Char} (h : Segmented kind (s :: items)) :
    readSegments kind ('.' :: segmentsChars (s :: items)) = s :: items := by
  have hslash : ∀ t ∈ ['.'] :: s :: items, ∀ c ∈ t, Url.isSlash kind c = false := by
    refine List.forall_mem_cons.mpr ⟨?_, h.isSlash⟩
    simp [Url.isSlash]
  have hsplit : splitSegments kind ('.' :: segmentsChars (s :: items)) = ['.'] :: s :: items :=
    splitSegments_segmentsChars hslash
  have hdot : Percent.encode Percent.inPath ['.'] = ['.'] := rfl
  rw [readSegments, hsplit, List.map_cons, map_encode_segmented h, hdot, resolveDots,
    if_neg (by decide), if_pos (by decide), resolveDots_segmented hkind h, List.nil_append, trimFile,
    if_neg hkind]

theorem readPath_segmentsChars (hkind : kind ≠ .file) (h : Segmented kind items)
    (hspecial : kind.isSpecial = true → items ≠ []) :
    readPath kind (segmentsChars items) = .segments items := by
  cases items with
  | nil =>
    have hplain : kind.isSpecial = false := Bool.eq_false_iff.mpr fun h => hspecial h rfl
    simp [segmentsChars, readPath, hplain]
  | cons s items =>
    have hslash : isSlash kind '/' = true := by simp [isSlash]
    rw [segmentsChars_cons, readPath, hslash, if_pos rfl, readSegments_segmentsChars hkind h]

end ServiceCall.Url
