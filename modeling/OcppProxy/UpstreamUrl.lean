import OcppProxy.Library.UrlPath

/-!
# The upstream URL

`build_upstream_url` puts the charge point id after the base path and lets the url crate set the
result as the path. The id is one segment that decodes to it only if nothing in it means something
to the crate.
-/

namespace OcppProxy

open Percent UrlPath

inductive Scheme where
  | ws
  | wss
  deriving DecidableEq, Repr

structure Url (encodes : Char → Bool) where
  scheme : Scheme
  authority : String
  path : UrlPath encodes
  afterPath : String

/-- What is used of the url crate. -/
structure UrlCrate where
  encodes : Char → Bool
  setPath : Url encodes → List Char → Url encodes

/-- The crate reads paths as the URL standard says for special schemes. -/
structure UrlCrate.FollowsStandard (crate : UrlCrate) : Prop where
  keepsEscapes : KeepsEscapes crate.encodes
  encodesDelimiters : ∀ c : Char, c = '?' ∨ c = '#' ∨ c = ' ' ∨ 0x80 ≤ c.toNat →
    crate.encodes c = true
  setPath_eq : ∀ url text, crate.setPath url text = { url with path := parse keepsEscapes text }

namespace UrlCrate

variable (crate : UrlCrate)

/-- The base path up to where the id goes. -/
def directory (baseUrl : Url crate.encodes) : List Char :=
  let path := baseUrl.path.text
  if path.getLast? = some '/' then path else path ++ ['/']

def buildUpstreamUrl (baseUrl : Url crate.encodes) (chargePointId : String) : Url crate.encodes :=
  crate.setPath baseUrl (crate.directory baseUrl ++ chargePointId.toList)

/-- The path is the base path and one segment, which decodes to the id. -/
def NamesId (baseUrl : Url crate.encodes) (chargePointId : String) : Prop :=
  ∃ segment, '/' ∉ segment ∧ percentDecode segment = utf8 chargePointId.toList ∧
    (crate.buildUpstreamUrl baseUrl chargePointId).path.text = crate.directory baseUrl ++ segment

variable {crate} {baseUrl : Url crate.encodes} {id other : String}

/-- The base path with its slash is some of its segments and the slash that opens the next one. -/
theorem directory_eq (baseUrl : Url crate.encodes) : ∃ segments,
    (∀ segment ∈ segments, IsNormal crate.encodes segment) ∧
      crate.directory baseUrl = write segments ++ ['/'] := by
  have hnormal := baseUrl.path.normal
  obtain ⟨front, last, hsegments⟩ :=
    (List.eq_nil_or_concat baseUrl.path.segments).resolve_left baseUrl.path.nonempty
  rw [List.concat_eq_append] at hsegments
  have htext : baseUrl.path.text = write front ++ '/' :: last := by
    unfold UrlPath.text
    rw [hsegments]
    simp [write]
  rw [hsegments] at hnormal
  by_cases hlast : last = []
  · refine ⟨front, fun s hs => hnormal s (List.mem_append_left _ hs), ?_⟩
    simp [directory, htext, hlast]
  · have hslash : last.getLast? ≠ some '/' := by
      intro h
      exact slash_not_mem (hnormal last (by simp)) (List.mem_of_getLast? h)
    have hend : (write front ++ '/' :: last).getLast? = last.getLast? := by
      have happend : write front ++ '/' :: last = (write front ++ ['/']) ++ last := by
        simp
      rw [happend, List.getLast?_append_of_ne_nil _ hlast]
    refine ⟨front ++ [last], hnormal, ?_⟩
    simp only [directory, htext, hend, if_neg hslash]
    simp [write]

theorem buildUpstreamUrl_path (hcrate : crate.FollowsStandard) :
    (crate.buildUpstreamUrl baseUrl id).path =
      parse hcrate.keepsEscapes (crate.directory baseUrl ++ id.toList) := by
  unfold buildUpstreamUrl
  rw [hcrate.setPath_eq]

theorem namesId_iff_isPlain (hcrate : crate.FollowsStandard) :
    crate.NamesId baseUrl id ↔ IsPlain id.toList := by
  obtain ⟨segments, hnormal, hdirectory⟩ := directory_eq baseUrl
  rw [← names_iff hcrate.keepsEscapes hnormal id.toList]
  unfold NamesId
  rw [buildUpstreamUrl_path hcrate, hdirectory]
  simp only [List.append_assoc, List.singleton_append]

/-- Ids that are named share no path. -/
theorem NamesId.inj (hid : crate.NamesId baseUrl id) (hother : crate.NamesId baseUrl other)
    (hpath : (crate.buildUpstreamUrl baseUrl id).path.text =
      (crate.buildUpstreamUrl baseUrl other).path.text) : id = other := by
  obtain ⟨segment, -, hdecode, htext⟩ := hid
  obtain ⟨segment', -, hdecode', htext'⟩ := hother
  rw [htext, htext'] at hpath
  have hsegment : segment = segment' := List.append_cancel_left hpath
  rw [← hsegment, hdecode] at hdecode'
  exact String.toList_inj.mp (utf8_injective hdecode')

/-- The upstream URL names the id under the base path if and only if the id is plain, and then no
other such id has its path. -/
theorem namesId_iff (hcrate : crate.FollowsStandard) (baseUrl : Url crate.encodes) (id : String) :
    (crate.NamesId baseUrl id ↔ IsPlain id.toList) ∧
      ∀ other, IsPlain id.toList → IsPlain other.toList → id ≠ other →
        (crate.buildUpstreamUrl baseUrl id).path.text ≠
          (crate.buildUpstreamUrl baseUrl other).path.text := by
  refine ⟨namesId_iff_isPlain hcrate, fun other hid hother hne hpath => ?_⟩
  refine hne (NamesId.inj ?_ ?_ hpath)
  · exact (namesId_iff_isPlain hcrate).mpr hid
  · exact (namesId_iff_isPlain hcrate).mpr hother

def pathEncodeSet (c : Char) : Bool :=
  c.toNat ≤ 0x20 || 0x7F ≤ c.toNat ||
    [0x22, 0x23, 0x3C, 0x3E, 0x3F, 0x60, 0x7B, 0x7D].contains c.toNat

theorem keepsEscapes_pathEncodeSet : KeepsEscapes pathEncodeSet := by
  have hall : ∀ n < 0x67, (hexValue (Char.ofNat n)).isSome →
      pathEncodeSet (Char.ofNat n) = false := by
    decide +kernel
  intro c hc
  rcases hc with rfl | hhex
  · decide
  · have hbound : c.toNat < 0x67 := by
      by_contra hlarge
      have hnone : hexValue c = none := by
        have hnine : ¬ c ≤ '9' := by intro h; exact hlarge (Nat.lt_of_le_of_lt h (by decide))
        have hf : ¬ c ≤ 'f' := by intro h; exact hlarge (Nat.lt_of_le_of_lt h (by decide))
        have hF : ¬ c ≤ 'F' := by intro h; exact hlarge (Nat.lt_of_le_of_lt h (by decide))
        simp [hexValue, hnine, hf, hF]
      rw [hnone] at hhex
      cases hhex
    have h := hall c.toNat hbound
    rw [Char.ofNat_toNat] at h
    exact h hhex

def standard : UrlCrate where
  encodes := pathEncodeSet
  setPath url text := { url with path := parse keepsEscapes_pathEncodeSet text }

theorem standard_followsStandard : standard.FollowsStandard where
  keepsEscapes := keepsEscapes_pathEncodeSet
  encodesDelimiters c hc := by
    rcases hc with rfl | rfl | rfl | hc
    · rfl
    · rfl
    · rfl
    · have hlarge : 0x7F ≤ c.toNat := by omega
      simp [standard, pathEncodeSet, hlarge]
  setPath_eq _ _ := rfl

def central : Url pathEncodeSet where
  scheme := .wss
  authority := "central.example"
  path := parse keepsEscapes_pathEncodeSet "/ocpp".toList
  afterPath := ""

theorem namesId_iff_central : (standard.buildUpstreamUrl central "EV 01").path.text =
      "/ocpp/EV%2001".toList ∧ standard.NamesId central "EV 01" := by
  refine ⟨by decide +kernel, ?_⟩
  exact (namesId_iff standard_followsStandard central "EV 01").1.mpr (by decide +kernel)

/-- A charger that connects as `%2E%2E` is `..`, and its upstream path is above the base path. -/
theorem not_namesId_central : (standard.buildUpstreamUrl central "..").path.text = "/".toList ∧
    ¬ standard.NamesId central ".." := by
  have hpath : (standard.buildUpstreamUrl central "..").path.text = "/".toList := by
    decide +kernel
  refine ⟨hpath, ?_⟩
  rintro ⟨segment, -, -, htext⟩
  have hdirectory : standard.directory central = "/ocpp/".toList := by
    decide +kernel
  rw [hpath, hdirectory] at htext
  have hlength := congrArg List.length htext
  simp at hlength

end UrlCrate

end OcppProxy
