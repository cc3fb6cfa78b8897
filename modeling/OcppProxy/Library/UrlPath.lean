import OcppProxy.Library.Percent
import Mathlib.Data.List.Flatten
import Mathlib.Tactic.Common

/-!
# Paths of special URLs

How the URL standard reads a text as the path of a URL of a special scheme: tabs and newlines are
dropped, both slashes separate, dot segments are resolved, and the rest is percent-encoded. A path
that has been read is left as it is by another reading.
-/

namespace OcppProxy

open Percent

namespace UrlPath

def isSeparator (c : Char) : Bool := c == '/' || c == '\\'

def isTabOrNewline (c : Char) : Bool := c == '\t' || c == '\n' || c == '\r'

def dotSpellings : List (List Char) := [['.'], ['%', '2', 'e'], ['%', '2', 'E']]

def isSingleDot (segment : List Char) : Bool := dotSpellings.contains segment

def isDoubleDot (segment : List Char) : Bool :=
  (dotSpellings.flatMap fun first => dotSpellings.map fun second =>
    first ++ second).contains segment

/-- A segment that may stand in a path. -/
structure IsNormal (encodes : Char → Bool) (segment : List Char) : Prop where
  chars : ∀ c ∈ segment, isSeparator c = false ∧ isTabOrNewline c = false ∧ encodes c = false
  notSingle : isSingleDot segment = false
  notDouble : isDoubleDot segment = false

end UrlPath

open UrlPath

/-- The path of a URL of a special scheme. -/
structure UrlPath (encodes : Char → Bool) where
  segments : List (List Char)
  nonempty : segments ≠ []
  normal : ∀ segment ∈ segments, IsNormal encodes segment

namespace UrlPath

/-- Segments as they are written, a slash before each. -/
def write (segments : List (List Char)) : List Char :=
  segments.flatMap fun segment => '/' :: segment

def text {encodes : Char → Bool} (path : UrlPath encodes) : List Char := write path.segments

/-- The path after one more segment. The last one of a text leaves an empty segment in the place of
a dot segment. -/
def push (path : List (List Char)) (segment : List Char) (last : Bool) : List (List Char) :=
  if isDoubleDot segment then
    if last then path.dropLast ++ [[]] else path.dropLast
  else if isSingleDot segment then
    if last then path ++ [[]] else path
  else path ++ [segment]

def read (encodes : Char → Bool) (path : List (List Char)) : List (List Char) → List (List Char)
  | [] => path
  | piece :: rest => read encodes (push path (encode encodes piece) rest.isEmpty) rest

/-- What separators leave of a text; one at its beginning only opens the path. -/
def pieces (text : List Char) : List (List Char) :=
  match text.filter fun c => !isTabOrNewline c with
  | [] => [[]]
  | c :: rest =>
    if isSeparator c then rest.splitOnP isSeparator else (c :: rest).splitOnP isSeparator

variable {encodes : Char → Bool} {path segments : List (List Char)} {segment piece : List Char}
  {c : Char}

/-! ## Pieces of a text -/

theorem mem_of_mem_splitOnP {p : Char → Bool} {xs : List Char} (hpiece : piece ∈ xs.splitOnP p)
    (hc : c ∈ piece) : c ∈ xs ∧ p c = false := by
  induction xs generalizing piece with
  | nil => simp_all
  | cons x xs ih =>
    rw [List.splitOnP_cons_eq_if_modifyHead] at hpiece
    obtain ⟨head, tail, hsplit⟩ := List.exists_cons_of_ne_nil (List.splitOnP_ne_nil p xs)
    rw [hsplit] at hpiece ih
    cases hx : p x with
    | true =>
      simp only [hx, if_true, List.mem_cons] at hpiece
      rcases hpiece with rfl | hpiece
      · cases hc
      · have hrest := ih (List.mem_cons.mpr hpiece) hc
        exact ⟨List.mem_cons_of_mem _ hrest.1, hrest.2⟩
    | false =>
      simp only [hx, Bool.false_eq_true, if_false, List.modifyHead_cons, List.mem_cons] at hpiece
      rcases hpiece with rfl | hpiece
      · rcases List.mem_cons.mp hc with rfl | hc
        · exact ⟨List.mem_cons_self, hx⟩
        · have hrest := ih List.mem_cons_self hc
          exact ⟨List.mem_cons_of_mem _ hrest.1, hrest.2⟩
      · have hrest := ih (List.mem_cons_of_mem _ hpiece) hc
        exact ⟨List.mem_cons_of_mem _ hrest.1, hrest.2⟩

/-- The last piece ends the text, and is the whole of it if there is no other. -/
theorem splitOnP_last (p : Char → Bool) (xs : List Char) : ∃ before last,
    xs.splitOnP p = before ++ [last] ∧ last <:+ xs ∧ (before = [] → last = xs) := by
  induction xs with
  | nil => exact ⟨[], [], rfl, List.suffix_refl _, fun _ => rfl⟩
  | cons x xs ih =>
    obtain ⟨before, last, hsplit, hsuffix, hwhole⟩ := ih
    have htail : last <:+ x :: xs := hsuffix.trans (List.suffix_cons x xs)
    rw [List.splitOnP_cons_eq_if_modifyHead, hsplit]
    cases hx : p x with
    | true => exact ⟨[] :: before, last, rfl, htail, fun h => absurd h (List.cons_ne_nil _ _)⟩
    | false =>
      cases before with
      | nil =>
        have hxs : last = xs := hwhole rfl
        rw [hxs]
        exact ⟨[], x :: xs, rfl, List.suffix_refl _, fun _ => rfl⟩
      | cons head before =>
        exact ⟨(x :: head) :: before, last, rfl, htail, fun h => absurd h (List.cons_ne_nil _ _)⟩

theorem isSeparator_slash : isSeparator '/' = true := rfl

theorem filter_normal (h : IsNormal encodes segment) :
    segment.filter (fun c => !isTabOrNewline c) = segment := by
  rw [List.filter_eq_self]
  intro c hc
  simp [(h.chars c hc).2.1]

/-- Segments that are written before a text are its first pieces. -/
theorem pieces_write (hnormal : ∀ segment ∈ segments, IsNormal encodes segment)
    (tail : List Char) : pieces (write segments ++ '/' :: tail) =
      segments ++ (tail.filter fun c => !isTabOrNewline c).splitOnP isSeparator := by
  have hbody : ∃ body, (write segments ++ '/' :: tail).filter (fun c => !isTabOrNewline c) =
        '/' :: body ∧ body.splitOnP isSeparator =
          segments ++ (tail.filter fun c => !isTabOrNewline c).splitOnP isSeparator := by
    induction segments with
    | nil => exact ⟨_, rfl, rfl⟩
    | cons segment segments ih =>
      obtain ⟨body, hfilter, hsplit⟩ := ih fun s hs => hnormal s (List.mem_cons_of_mem _ hs)
      have hsegment := hnormal segment List.mem_cons_self
      refine ⟨segment ++ '/' :: body, ?_, ?_⟩
      · have hwrite : write (segment :: segments) ++ '/' :: tail =
            '/' :: segment ++ (write segments ++ '/' :: tail) := by
          simp [write]
        rw [hwrite, List.filter_append, hfilter, List.filter_cons_of_pos (by decide),
          filter_normal hsegment, List.cons_append]
      · rw [List.splitOnP_append_cons_of_forall_mem (fun c hc => (hsegment.chars c hc).1) _
          isSeparator_slash, hsplit, List.cons_append]
  obtain ⟨body, hfilter, hsplit⟩ := hbody
  unfold pieces
  rw [hfilter]
  exact hsplit

theorem mem_of_mem_pieces {text : List Char} (hpiece : piece ∈ pieces text) (hc : c ∈ piece) :
    isSeparator c = false ∧ isTabOrNewline c = false := by
  have hkept (hmem : c ∈ text.filter fun c => !isTabOrNewline c) : isTabOrNewline c = false := by
    simpa using (List.mem_filter.mp hmem).2
  unfold pieces at hpiece
  split at hpiece
  · obtain rfl := List.mem_singleton.mp hpiece
    cases hc
  · rename_i d rest hfilter
    split at hpiece
    · obtain ⟨hmem, hsep⟩ := mem_of_mem_splitOnP hpiece hc
      exact ⟨hsep, hkept (hfilter ▸ List.mem_cons_of_mem _ hmem)⟩
    · obtain ⟨hmem, hsep⟩ := mem_of_mem_splitOnP hpiece hc
      exact ⟨hsep, hkept (hfilter ▸ hmem)⟩

/-! ## Reading -/

theorem isNormal_nil : IsNormal encodes [] :=
  ⟨fun _ h => absurd h List.not_mem_nil, rfl, rfl⟩

/-- A character of an escape does not separate. -/
theorem isSeparator_of_hexValue (h : c = '%' ∨ (hexValue c).isSome) :
    isSeparator c = false ∧ isTabOrNewline c = false := by
  constructor
  · by_contra hsep
    rw [Bool.not_eq_false] at hsep
    have hc : c = '/' ∨ c = '\\' := by simpa [isSeparator] using hsep
    rcases hc with rfl | rfl <;> exact absurd h (by decide)
  · by_contra htab
    rw [Bool.not_eq_false] at htab
    have hc : (c = '\t' ∨ c = '\n') ∨ c = '\r' := by simpa [isTabOrNewline] using htab
    rcases hc with (rfl | rfl) | rfl <;> exact absurd h (by decide)

theorem isNormal_push (hkeeps : KeepsEscapes encodes)
    (hpath : ∀ segment ∈ path, IsNormal encodes segment)
    (hpiece : ∀ c ∈ piece, isSeparator c = false ∧ isTabOrNewline c = false) (last : Bool) :
    ∀ segment ∈ push path (encode encodes piece) last, IsNormal encodes segment := by
  have hempty {segments : List (List Char)} (h : ∀ s ∈ segments, IsNormal encodes s) :
      ∀ s ∈ segments ++ [[]], IsNormal encodes s := by
    intro s hs
    rcases List.mem_append.mp hs with hs | hs
    · exact h s hs
    · obtain rfl := List.mem_singleton.mp hs
      exact isNormal_nil
  have hshorter : ∀ s ∈ path.dropLast, IsNormal encodes s :=
    fun s hs => hpath s (List.dropLast_subset _ hs)
  unfold push
  split
  · cases last
    · exact hshorter
    · exact hempty hshorter
  · split
    · cases last
      · exact hpath
      · exact hempty hpath
    · rename_i hdouble hsingle
      intro s hs
      rcases List.mem_append.mp hs with hs | hs
      · exact hpath s hs
      · obtain rfl := List.mem_singleton.mp hs
        refine ⟨fun c hc => ?_, by simpa using hsingle, by simpa using hdouble⟩
        rcases mem_encode hc with rfl | hhex | ⟨hmem, hplain⟩
        · have hsep := isSeparator_of_hexValue (.inl rfl)
          exact ⟨hsep.1, hsep.2, hkeeps _ (.inl rfl)⟩
        · have hsep := isSeparator_of_hexValue (.inr hhex)
          exact ⟨hsep.1, hsep.2, hkeeps _ (.inr hhex)⟩
        · exact ⟨(hpiece c hmem).1, (hpiece c hmem).2, hplain⟩

theorem isNormal_read (hkeeps : KeepsEscapes encodes) {pieces : List (List Char)}
    (hpath : ∀ segment ∈ path, IsNormal encodes segment)
    (hpieces : ∀ piece ∈ pieces, ∀ c ∈ piece, isSeparator c = false ∧ isTabOrNewline c = false) :
    ∀ segment ∈ read encodes path pieces, IsNormal encodes segment := by
  induction pieces generalizing path with
  | nil => exact hpath
  | cons piece rest ih =>
    refine ih (isNormal_push hkeeps hpath (hpieces piece List.mem_cons_self) _) ?_
    exact fun p hp => hpieces p (List.mem_cons_of_mem _ hp)

theorem push_normal (h : IsNormal encodes segment) (last : Bool) :
    push path segment last = path ++ [segment] := by
  simp [push, h.notSingle, h.notDouble]

theorem encode_normal (h : IsNormal encodes segment) : encode encodes segment = segment := by
  have hchar : ∀ c ∈ segment, encodeChar encodes c = [c] :=
    fun c hc => encodeChar_of_not (h.chars c hc).2.2
  unfold encode
  rw [List.flatMap_congr hchar, List.flatMap_singleton']

/-- Segments that may stand in a path are read as they are. -/
theorem read_normal (hnormal : ∀ segment ∈ segments, IsNormal encodes segment)
    (rest : List (List Char)) :
    read encodes path (segments ++ rest) = read encodes (path ++ segments) rest := by
  induction segments generalizing path with
  | nil => simp
  | cons segment segments ih =>
    have hsegment := hnormal segment List.mem_cons_self
    rw [List.cons_append, read, encode_normal hsegment, push_normal hsegment,
      ih fun s hs => hnormal s (List.mem_cons_of_mem _ hs)]
    simp

/-- The last piece is the last segment, or leaves an empty one. -/
theorem read_concat (before : List (List Char)) (piece : List Char) : ∃ front,
    read encodes path (before ++ [piece]) = front ++
      [if isDoubleDot (encode encodes piece) || isSingleDot (encode encodes piece) then []
        else encode encodes piece] := by
  induction before generalizing path with
  | nil =>
    cases hdouble : isDoubleDot (encode encodes piece) with
    | true => exact ⟨path.dropLast, by simp [read, push, hdouble]⟩
    | false =>
      refine ⟨path, ?_⟩
      cases hsingle : isSingleDot (encode encodes piece) <;> simp [read, push, hdouble, hsingle]
  | cons first before ih => exact ih

theorem read_ne_nil (before : List (List Char)) (hne : before ≠ []) :
    read encodes path before ≠ [] := by
  obtain ⟨front, last, rfl⟩ := (List.eq_nil_or_concat before).resolve_left hne
  obtain ⟨segments, hread⟩ := @read_concat encodes path front last
  rw [List.concat_eq_append, hread]
  exact List.concat_ne_nil _ _

theorem pieces_ne_nil (text : List Char) : pieces text ≠ [] := by
  unfold pieces
  split
  · exact List.cons_ne_nil _ _
  · split <;> exact List.splitOnP_ne_nil _ _

def parse (hkeeps : KeepsEscapes encodes) (text : List Char) : UrlPath encodes where
  segments := read encodes [] (pieces text)
  nonempty := read_ne_nil _ (pieces_ne_nil text)
  normal := isNormal_read hkeeps (fun _ h => absurd h List.not_mem_nil)
    fun _ hpiece _ hc => mem_of_mem_pieces hpiece hc

/-! ## One more segment -/

/-- A text that is one segment and is not read as anything else. -/
structure IsPlain (segment : List Char) : Prop where
  chars : ∀ c ∈ segment, isSeparator c = false ∧ isTabOrNewline c = false
  noEscape : hasEscape segment = false
  notDots : segment ≠ ['.'] ∧ segment ≠ ['.', '.']

theorem isPlain_iff : IsPlain segment ↔
    (segment.all fun c => !isSeparator c && !isTabOrNewline c) = true ∧
      hasEscape segment = false ∧ segment ≠ ['.'] ∧ segment ≠ ['.', '.'] := by
  rw [List.all_eq_true]
  constructor
  · intro h
    exact ⟨fun c hc => by simp [h.chars c hc], h.noEscape, h.notDots⟩
  · rintro ⟨hchars, hescape, hdots⟩
    exact ⟨fun c hc => by simpa using hchars c hc, hescape, hdots⟩

instance (segment : List Char) : Decidable (IsPlain segment) :=
  decidable_of_iff _ isPlain_iff.symm

theorem percentDecode_singleDot (h : isSingleDot segment = true) :
    percentDecode segment = utf8 ['.'] := by
  have hall : ∀ segment ∈ dotSpellings, percentDecode segment = utf8 ['.'] := by decide
  exact hall segment (by simpa [isSingleDot] using h)

theorem percentDecode_doubleDot (h : isDoubleDot segment = true) :
    percentDecode segment = utf8 ['.', '.'] := by
  have hall : ∀ segment ∈ dotSpellings.flatMap fun first =>
      dotSpellings.map fun second => first ++ second,
      percentDecode segment = utf8 ['.', '.'] := by
    decide
  exact hall segment (List.contains_iff_mem.mp h)

theorem IsPlain.not_dots (h : IsPlain segment) (hkeeps : KeepsEscapes encodes) :
    isDoubleDot (encode encodes segment) = false ∧
      isSingleDot (encode encodes segment) = false := by
  have hdecode : percentDecode (encode encodes segment) = utf8 segment :=
    (percentDecode_encode hkeeps segment).trans (percentDecode_of_not_hasEscape h.noEscape)
  constructor
  · by_contra hdots
    rw [percentDecode_doubleDot (by simpa using hdots)] at hdecode
    exact h.notDots.2 (utf8_injective hdecode).symm
  · by_contra hdots
    rw [percentDecode_singleDot (by simpa using hdots)] at hdecode
    exact h.notDots.1 (utf8_injective hdecode).symm

theorem isSingleDot_encode : isSingleDot (encode encodes ['.']) = true := by
  cases h : encodes '.' with
  | true => simp only [encode, List.flatMap_singleton, encodeChar, h, if_true]; decide
  | false => simp only [encode, List.flatMap_singleton, encodeChar_of_not h]; decide

theorem isDoubleDot_encode : isDoubleDot (encode encodes ['.', '.']) = true := by
  cases h : encodes '.' with
  | true => simp only [encode, List.flatMap_cons, List.flatMap_nil, encodeChar, h, if_true]; decide
  | false => simp only [encode, List.flatMap_cons, List.flatMap_nil, encodeChar_of_not h]; decide

/-- A plain text is read as one more segment. -/
theorem parse_plain (hkeeps : KeepsEscapes encodes)
    (hnormal : ∀ segment ∈ segments, IsNormal encodes segment) (h : IsPlain segment) :
    (parse hkeeps (write segments ++ '/' :: segment)).segments =
      segments ++ [encode encodes segment] := by
  have hfilter : segment.filter (fun c => !isTabOrNewline c) = segment := by
    rw [List.filter_eq_self]
    intro c hc
    simp [(h.chars c hc).2]
  have hdots := h.not_dots hkeeps
  change read encodes [] (pieces _) = _
  rw [pieces_write hnormal, hfilter, List.splitOnP_eq_singleton fun c hc => (h.chars c hc).1,
    read_normal hnormal]
  simp [read, push, hdots]

/-- Only a plain text is named by the last segment of the path it is read into. -/
theorem isPlain_of_last (hkeeps : KeepsEscapes encodes)
    (hnormal : ∀ segment ∈ segments, IsNormal encodes segment) {tail last : List Char}
    {front : List (List Char)}
    (hparse : (parse hkeeps (write segments ++ '/' :: tail)).segments = front ++ [last])
    (hdecode : percentDecode last = utf8 tail) : IsPlain tail := by
  obtain ⟨before, piece, hsplit, hsuffix, -⟩ :=
    splitOnP_last isSeparator (tail.filter fun c => !isTabOrNewline c)
  change read encodes [] (pieces _) = _ at hparse
  rw [pieces_write hnormal, hsplit, read_normal hnormal] at hparse
  obtain ⟨front', hread⟩ := @read_concat encodes ([] ++ segments) before piece
  have hlast := (List.append_inj' (hread.symm.trans hparse) rfl).2
  simp only [List.cons.injEq, and_true] at hlast
  by_cases hdots : (isDoubleDot (encode encodes piece) || isSingleDot (encode encodes piece)) = true
  · rw [if_pos hdots] at hlast
    rw [← hlast] at hdecode
    have hempty : tail = [] := utf8_eq_nil.mp hdecode.symm
    rw [hempty]
    decide
  · rw [if_neg hdots] at hlast
    rw [← hlast, percentDecode_encode hkeeps] at hdecode
    -- Neither cutting the text nor decoding lengthens it, so both leave it whole.
    have hsub : (utf8 piece).Sublist (utf8 tail) :=
      (hsuffix.sublist.trans List.filter_sublist).flatMap _
    have hlength : (utf8 tail).length ≤ (utf8 piece).length := by
      rw [← hdecode]
      exact Nat.le_trans (Nat.le_add_right _ _) (length_percentDecode piece)
    have hwhole : piece = tail := utf8_injective (hsub.eq_of_length_le hlength)
    have hmem : piece ∈ (tail.filter fun c => !isTabOrNewline c).splitOnP isSeparator := by
      simp [hsplit]
    subst hwhole
    refine ⟨fun c hc => ?_, percentDecode_eq_utf8.mp hdecode, ?_, ?_⟩
    · obtain ⟨hfilter, hsep⟩ := mem_of_mem_splitOnP hmem hc
      exact ⟨hsep, by simpa using (List.mem_filter.mp hfilter).2⟩
    · rintro rfl
      exact hdots (by rw [isSingleDot_encode, Bool.or_true])
    · rintro rfl
      exact hdots (by rw [isDoubleDot_encode, Bool.true_or])

/-- What follows the last slash is determined by the text. -/
theorem write_concat_inj {before front : List (List Char)} {last : List Char}
    (hsegment : '/' ∉ segment) (hlast : '/' ∉ last)
    (h : write (before ++ [segment]) = write front ++ '/' :: last) :
    write before = write front ∧ segment = last := by
  have hwrite : write (before ++ [segment]) = write before ++ '/' :: segment := by
    simp [write]
  rw [hwrite] at h
  have hsplit := congrArg (List.splitOn '/') h
  rw [List.splitOn_append_cons_self, List.splitOn_append_cons_self,
    List.splitOn_eq_singleton hsegment, List.splitOn_eq_singleton hlast] at hsplit
  have hsame : segment = last := by simpa using (List.append_inj' hsplit rfl).2
  subst hsame
  exact ⟨(List.append_inj' h rfl).1, rfl⟩

theorem slash_not_mem (h : IsNormal encodes segment) : '/' ∉ segment := by
  intro hmem
  exact absurd (h.chars _ hmem).1 (by decide)

/-- A text that stands after a path is one more segment that names it if and only if it is plain. -/
theorem names_iff (hkeeps : KeepsEscapes encodes)
    (hnormal : ∀ segment ∈ segments, IsNormal encodes segment) (tail : List Char) :
    (∃ segment, '/' ∉ segment ∧ percentDecode segment = utf8 tail ∧
      (parse hkeeps (write segments ++ '/' :: tail)).text = write segments ++ '/' :: segment) ↔
      IsPlain tail := by
  constructor
  · rintro ⟨segment, hslash, hdecode, htext⟩
    have hpath := (parse hkeeps (write segments ++ '/' :: tail)).normal
    obtain ⟨front, last, hparse⟩ := (List.eq_nil_or_concat
      (parse hkeeps (write segments ++ '/' :: tail)).segments).resolve_left (nonempty _)
    rw [List.concat_eq_append] at hparse
    unfold text at htext
    rw [hparse] at htext hpath
    have hlast : '/' ∉ last := slash_not_mem (hpath last (by simp))
    obtain ⟨-, rfl⟩ := write_concat_inj hlast hslash htext
    exact isPlain_of_last hkeeps hnormal hparse hdecode
  · intro hplain
    have hparse := parse_plain hkeeps hnormal hplain
    have hpath := (parse hkeeps (write segments ++ '/' :: tail)).normal
    rw [hparse] at hpath
    refine ⟨encode encodes tail, slash_not_mem (hpath _ (by simp)), ?_, ?_⟩
    · rw [percentDecode_encode hkeeps, percentDecode_of_not_hasEscape hplain.noEscape]
    · unfold text
      rw [hparse]
      simp [write]

end UrlPath

end OcppProxy
