import Mathlib.Data.List.TakeWhile
import Provision.Proofs.Files.Components
import Provision.Tools

/-!
# Where downloads are kept

Whatever an address is, its download is kept directly in the work directory. An address that is
spelled from its parts, whatever its query and its fragment hold, gives its last segment as the
name, or the fixed name if this segment cannot be one.
-/

namespace Provision.Text

/-! ## Cuts at the front of a text -/

theorem suffix_of_after? {mark s rest : List Char} (h : after? mark s = some rest) : rest <:+ s := by
  induction s with
  | nil =>
    rw [after?] at h
    split at h
    · obtain rfl := Option.some.inj h
      exact List.suffix_rfl
    · cases h
  | cons c others ih =>
    rw [after?] at h
    split at h
    · obtain rfl := Option.some.inj h
      exact List.drop_suffix _ _
    · exact (ih h).trans (List.suffix_cons c others)

theorem after?_append {c : Char} {front : List Char} (h : c ∉ front) (mark back : List Char) :
    after? (c :: mark) (front ++ (c :: mark ++ back)) = some back := by
  induction front with
  | nil => simp [after?]
  | cons first rest ih =>
    rw [List.mem_cons, not_or] at h
    have hfirst : (c :: mark).isPrefixOf (first :: (rest ++ (c :: mark ++ back))) = false := by
      simp [List.isPrefixOf, h.1]
    rw [List.cons_append, after?, hfirst]
    exact ih h.2

theorem suffix_of_cut? {p : Char → Bool} {s before after : List Char}
    (h : cut? p s = some (before, after)) : after <:+ s := by
  obtain ⟨c, -, rfl, -⟩ := cut?_eq_some h
  exact (List.suffix_cons c after).trans (List.suffix_append before _)

theorem suffix_of_getLast?_pieces {separator : Char} {s piece : List Char}
    (h : (pieces separator s).getLast? = some piece) : piece <:+ s := by
  obtain ⟨front, hfront⟩ := List.getLast?_eq_some_iff.mp h
  have hjoined := intercalate_pieces separator s
  rw [hfront] at hjoined
  rw [← hjoined]
  clear hjoined hfront h
  induction front with
  | nil => simp
  | cons first rest ih =>
    rw [List.cons_append]
    cases rest with
    | nil =>
      rw [List.nil_append, List.intercalate_cons_cons, List.intercalate_singleton]
      exact List.suffix_append _ _
    | cons second more =>
      rw [List.cons_append, List.intercalate_cons_cons]
      exact ih.trans (List.suffix_append _ _)

end Provision.Text

namespace Provision.Download

open Text

/-! ## Any address -/

theorem isUsable_iff {segment : List Char} :
    isUsable segment = true ↔ segment ≠ [] ∧ segment ≠ ['.'] ∧ segment ≠ ['.', '.'] := by
  simp [isUsable, and_assoc]

theorem fileName_cases (url : List Char) : fileName url = fallbackName ∨
    '/' ∉ fileName url ∧ fileName url <:+ url.takeWhile fun c => c != '?' && c != '#' := by
  have hplace : (after? "://".toList (url.takeWhile fun c => c != '?' && c != '#')).getD
      (url.takeWhile fun c => c != '?' && c != '#') <:+
        url.takeWhile fun c => c != '?' && c != '#' := by
    cases hafter : after? "://".toList (url.takeWhile fun c => c != '?' && c != '#') with
    | none => exact List.suffix_rfl
    | some rest => exact suffix_of_after? hafter
  unfold fileName
  simp only
  split
  · next segment hsegment =>
    split
    · obtain ⟨⟨before, path⟩, hcut, hlast⟩ := Option.bind_eq_some_iff.mp hsegment
      refine .inr ⟨not_mem_of_mem_pieces (List.mem_of_getLast? hlast), ?_⟩
      exact ((suffix_of_getLast?_pieces hlast).trans (suffix_of_cut? hcut)).trans hplace
    · exact .inl rfl
  · exact .inl rfl

/-- A name for a file directly in a directory, in which no mark of an address occurs. -/
structure IsPlainName (name : List Char) : Prop where
  isName : Path.IsName (String.ofList name)
  no_query : '?' ∉ name
  no_fragment : '#' ∉ name

theorem isPlainName_fallbackName : IsPlainName fallbackName where
  isName := ⟨by decide, by decide, by decide, by decide⟩
  no_query := by decide
  no_fragment := by decide

theorem isPlainName_fileName (url : List Char) : IsPlainName (fileName url) := by
  rcases fileName_cases url with hfallback | ⟨hslash, hsuffix⟩
  · rw [hfallback]
    exact isPlainName_fallbackName
  · have hmarks : ∀ c ∈ fileName url, c ≠ '?' ∧ c ≠ '#' := by
      intro c hc
      simpa using List.mem_takeWhile_imp (hsuffix.subset hc)
    obtain ⟨hempty, hhere, hup⟩ := isUsable_iff.mp (isUsable_fileName url)
    refine ⟨⟨?_, ?_, ?_, by simpa using hslash⟩, fun h => (hmarks _ h).1 rfl,
      fun h => (hmarks _ h).2 rfl⟩
    · simpa [← String.toList_inj] using hempty
    · simpa [← String.toList_inj] using hhere
    · simpa [← String.toList_inj] using hup

/-! ## An address from its parts -/

structure Address where
  scheme : List Char
  authority : List Char
  segments : List (List Char) := []
  query? : Option (List Char) := none
  fragment? : Option (List Char) := none

namespace Address

/-- What stands before the query and the fragment. -/
def place (address : Address) : List Char :=
  address.scheme ++ ("://".toList ++ (address.authority ++ address.segments.flatMap ('/' :: ·)))

def text (address : Address) : List Char :=
  address.place ++ ((address.query?.map ('?' :: ·)).getD [] ++
    (address.fragment?.map ('#' :: ·)).getD [])

/-- No part holds a mark that ends it. The query and the fragment may hold any. -/
structure Spellable (address : Address) : Prop where
  scheme : ∀ c ∈ address.scheme, c ∉ [':', '/', '?', '#']
  authority : ∀ c ∈ address.authority, c ∉ ['/', '?', '#']
  segments : ∀ segment ∈ address.segments, ∀ c ∈ segment, c ∉ ['/', '?', '#']

/-- The last segment, if it can be the name of a file in a directory. -/
def lastName? (address : Address) : Option (List Char) :=
  address.segments.getLast?.filter fun segment =>
    segment ≠ [] ∧ segment ≠ ['.'] ∧ segment ≠ ['.', '.']

variable {address : Address}

theorem takeWhile_text (h : address.Spellable) :
    address.text.takeWhile (fun c => c != '?' && c != '#') = address.place := by
  have hplace : ∀ c ∈ address.place, (c != '?' && c != '#') = true := by
    intro c hc
    simp only [place, List.mem_append, List.mem_flatMap, List.mem_cons] at hc
    rcases hc with hc | hc | hc | ⟨segment, hmem, rfl | hc⟩
    · have hscheme := h.scheme c hc
      simp_all
    · have hmark : c = ':' ∨ c = '/' := by simpa using hc
      rcases hmark with rfl | rfl <;> rfl
    · have hauthority := h.authority c hc
      simp_all
    · rfl
    · have hsegment := h.segments segment hmem c hc
      simp_all
  have hend : ((address.query?.map ('?' :: ·)).getD [] ++
      (address.fragment?.map ('#' :: ·)).getD []).takeWhile (fun c => c != '?' && c != '#') = [] := by
    cases address.query? with
    | some query => rfl
    | none => cases address.fragment? <;> rfl
  rw [text, List.takeWhile_append_of_pos hplace, hend, List.append_nil]

theorem flatMap_slash (first : List Char) (rest : List (List Char)) :
    (first :: rest).flatMap ('/' :: ·) = '/' :: ['/'].intercalate (first :: rest) := by
  induction rest generalizing first with
  | nil => simp
  | cons second more ih =>
    rw [List.flatMap_cons, ih, List.intercalate_cons_cons, List.append_assoc]
    rfl

theorem fileName_text (h : address.Spellable) :
    fileName address.text = address.lastName?.getD fallbackName := by
  have hscheme : ':' ∉ address.scheme := fun hmem => h.scheme _ hmem (by simp)
  have hafter : after? "://".toList address.place =
      some (address.authority ++ address.segments.flatMap ('/' :: ·)) :=
    after?_append hscheme "//".toList _
  have hauthority : ∀ c ∈ address.authority, decide (c = '/') = false := by
    intro c hc
    have := h.authority c hc
    simp_all
  unfold fileName lastName?
  simp only [takeWhile_text h, hafter, Option.getD_some]
  cases hsegments : address.segments with
  | nil =>
    have hcut : cut? (· = '/') address.authority = none := (cut?_eq_none_iff _ _).mpr hauthority
    simp [hcut]
  | cons first rest =>
    have hslash : ∀ segment ∈ first :: rest, '/' ∉ segment := by
      intro segment hmem hc
      exact h.segments segment (hsegments ▸ hmem) _ hc (by simp)
    rw [flatMap_slash, cut?_append_cons hauthority (by simp), Option.bind_some]
    simp only [pieces_intercalate hslash]
    rw [List.getLast?_eq_some_getLast (List.cons_ne_nil first rest)]
    generalize (first :: rest).getLast _ = last
    simp only [Option.filter_some, decide_eq_true_eq, ← isUsable_iff]
    split <;> rfl

end Address

/-! ## Where it is kept -/

/-- Where the download of an address is kept, and that this is where a call for it leads. -/
structure Confined (url : List Char) : Prop where
  plain : IsPlainName (fileName url)
  child : ∀ work : Path, (work.join (String.ofList (fileName url))).components =
    work.components ++ [.name (String.ofList (fileName url))]
  fetched : ∀ (machine : Machine) shell (work : Path) earlier files text,
    (machine.serve shell work earlier (.fetch (String.ofList url)) files).result = .ok text →
    (Path.mk text).components = work.components ++ [.name (String.ofList (fileName url))]

/-- No address leads out of the work directory, and a spelled one keeps its last segment. -/
theorem downloads_are_confined : (∀ url, Confined url) ∧ ∀ address : Address, address.Spellable →
    fileName address.text = address.lastName?.getD "download.deb".toList := by
  refine ⟨fun url => ?_, fun address h => Address.fileName_text h⟩
  have hplain := isPlainName_fileName url
  have hchild (work : Path) := Path.components_join work hplain.isName
  refine ⟨hplain, hchild, ?_⟩
  intro machine shell work earlier files text hserved
  simp only [Machine.serve, Service.ofCall, String.toList_ofList] at hserved
  cases hfetched : (machine.download (String.ofList url)
      (work.join (String.ofList (fileName url))) files).result with
  | error failure => simp [hfetched, Except.map] at hserved
  | ok answer =>
    rw [hfetched] at hserved
    obtain rfl := Except.ok.inj hserved
    exact hchild work

/-- A query that looks like an address, and segments that a path would step over. -/
def queriedAddress : Address where
  scheme := "https".toList
  authority := "h:80".toList
  segments := ["pool".toList, [], "..".toList, "a_1.deb".toList]
  query? := some "u=ftp://x/y.deb#z".toList
  fragment? := some "/?".toList

theorem downloads_are_confined_of_query :
    queriedAddress.text = "https://h:80/pool//../a_1.deb?u=ftp://x/y.deb#z#/?".toList ∧
    queriedAddress.Spellable ∧ fileName queriedAddress.text = "a_1.deb".toList := by
  have h : queriedAddress.Spellable := by
    constructor <;> simp [queriedAddress]
  exact ⟨by decide +kernel, h, downloads_are_confined.2 queriedAddress h⟩

end Provision.Download
