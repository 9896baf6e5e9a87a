import Mathlib.Data.List.Forall2
import Provision.Plan
import Provision.Proofs.Document.Grammar
import Provision.Proofs.Document.Lines
import Provision.Proofs.Text.Letters

/-!
# Letter case in documents

Keys, flags and host patterns are read without regard to the case of ASCII letters, and so is the
name of the host. Two documents that differ in nothing else are accepted or refused alike, and what
is planned for them is the same.
-/

namespace Provision

namespace Document

open Text

/-! ## Lines -/

theorem quoteAfter_toLower {opened : Option Char} (h : ∀ quote ∈ opened, isQuote quote = true)
    (c : Char) : quoteAfter opened c.toLower = quoteAfter opened c := by
  have hmark : ∀ quote, isQuote quote = true → (c.toLower = quote ↔ c = quote) := by
    intro quote hquote
    apply toLower_eq_iff
    simp only [isQuote, Bool.or_eq_true, decide_eq_true_eq] at hquote
    rcases hquote with rfl | rfl <;> decide
  cases opened with
  | none =>
    have hsame : isQuote c.toLower = isQuote c := by
      unfold isQuote
      simp only [hmark '"' (by decide), hmark '\'' (by decide)]
    unfold quoteAfter
    simp only [hsame]
    split
    · next hquote => rw [(hmark c hquote).mpr rfl]
    · rfl
  | some quote =>
    unfold quoteAfter
    simp only [hmark quote (h quote rfl)]

-- An open quote is a mark, which has no letter case, so it is closed by the same character.
theorem uncommentFrom_plain {opened : Option Char} (h : ∀ quote ∈ opened, isQuote quote = true)
    (s : List Char) : uncommentFrom opened (plain s) = plain (uncommentFrom opened s) := by
  induction s generalizing opened with
  | nil => rfl
  | cons c rest ih =>
    have hmark : c.toLower = '#' ↔ c = '#' := toLower_eq_iff (by decide)
    rw [plain_cons, uncommentFrom, uncommentFrom, quoteAfter_toLower h,
      ih (isQuote_of_mem_quoteAfter h c)]
    simp only [hmark]
    split
    · rfl
    · rw [plain_cons]

theorem clean_plain (raw : List Char) : clean (plain raw) = plain (clean raw) := by
  unfold clean uncomment
  rw [uncommentFrom_plain (by simp), trimEnd_plain]

theorem continued?_plain (line : List Char) :
    continued? (plain line) = (continued? line).map plain := by
  have hback : (plain line).reverse = plain line.reverse := List.map_reverse.symm
  have hslash : ∀ c : Char, c.toLower = '\\' ↔ c = '\\' := fun c => toLower_eq_iff (by decide)
  unfold continued?
  rw [hback]
  cases line.reverse with
  | nil => rfl
  | cons c rest =>
    rw [plain_cons]
    by_cases hc : c = '\\'
    · subst hc
      cases rest with
      | nil => rfl
      | cons d more =>
        rw [plain_cons]
        by_cases hd : d = '\\'
        · subst hd
          rfl
        · have hlower := mt (hslash d).mp hd
          simp [hd, hlower, plain]
    · have hlower := mt (hslash c).mp hc
      simp [hc, hlower]

def Line.plain (line : Line) : Line := { line with text := Text.plain line.text }

theorem joinLines_plain (pending : Option Line) (physical : List (List Char × Nat)) :
    joinLines (pending.map Line.plain) (physical.map (Prod.map plain id)) =
      (joinLines pending physical).map Line.plain := by
  induction physical generalizing pending with
  | nil =>
    cases pending with
    | none => rfl
    | some line => simp [joinLines, Line.plain, trimEnd_plain]
  | cons first rest ih =>
    obtain ⟨raw, number⟩ := first
    have hbegun : (pending.map Line.plain).getD ⟨number, []⟩ =
        (pending.getD ⟨number, []⟩).plain := by
      cases pending <;> rfl
    simp only [List.map_cons, Prod.map, id, joinLines, hbegun, clean_plain, continued?_plain]
    cases continued? (clean raw) with
    | none =>
      simp only [Option.map_none, List.map_cons, Line.plain, plain_append]
      exact congrArg _ (ih none)
    | some part =>
      let begun := pending.getD ⟨number, []⟩
      have hmore := ih (some { begun with text := begun.text ++ part ++ ['\n'] })
      simp only [Option.map_some, Line.plain, plain_append] at hmore ⊢
      exact hmore

theorem logicalLines_plain (text : List Char) :
    logicalLines (plain text) = (logicalLines text).map Line.plain := by
  unfold logicalLines
  rw [physicalLines_plain, List.zipIdx_map]
  exact joinLines_plain none _

/-! ## Where letter case may differ -/

/-- The keys whose values are read without regard to letter case. -/
def Key.ignoresCase : Key → Bool
  | .flags | .hosts => true
  | _ => false

/-- An indented line and what stands before and after its first colon. -/
structure HasParts (line : Line) (before after : List Char) : Prop where
  indented : line.isIndented = true
  split : line.text = before ++ ':' :: after
  first : ':' ∉ before

/-- The lines are the same but for a key and for a value whose letter case does not count. -/
def SameElsewhere (line twin : Line) : Prop :=
  line.text = twin.text ∨ ∃ before after twinBefore twinAfter,
    HasParts line before after ∧ HasParts twin twinBefore twinAfter ∧
      (after = twinAfter ∨
        ∃ key, Key.ignoresCase key = true ∧ lower (trim before) = key.token.toList)

/-- The texts differ in the case of ASCII letters only, and only where it does not count: in keys
and in the values of `flags` and `hosts`. -/
structure Respelled (text twin : List Char) : Prop where
  letters : plain text = plain twin
  elsewhere : ∀ pair ∈ (logicalLines text).zip (logicalLines twin),
    SameElsewhere pair.1 pair.2

theorem forall₂_of_map_eq {α β : Type} {f : α → β} {xs ys : List α} (h : xs.map f = ys.map f) :
    List.Forall₂ (fun x y => f x = f y) xs ys := by
  have hmapped : List.Forall₂ Eq (xs.map f) (ys.map f) := by
    rw [h, List.forall₂_eq_eq_eq]
  exact List.forall₂_map_right_iff.mp (List.forall₂_map_left_iff.mp hmapped)

theorem Respelled.lines {text twin : List Char} (h : Respelled text twin) :
    List.Forall₂ (fun line other => line.plain = other.plain ∧ SameElsewhere line other)
      (logicalLines text) (logicalLines twin) := by
  have hsame : (logicalLines text).map Line.plain = (logicalLines twin).map Line.plain := by
    rw [← logicalLines_plain, h.letters, logicalLines_plain]
  have hplain := forall₂_of_map_eq hsame
  rw [List.forall₂_iff_zip] at hplain ⊢
  refine ⟨hplain.1, ?_⟩
  intro line other hmem
  exact ⟨hplain.2 hmem, h.elsewhere (line, other) hmem⟩

/-! ## Outcomes -/

/-- The causes are the same up to the spelling of a flag that does not exist. -/
inductive Cause.Alike : Cause → Cause → Prop
  | same (cause : Cause) : Cause.Alike cause cause
  | unknownFlag (unit : String) {token twin : List Char} (h : plain token = plain twin) :
    Cause.Alike (.unknownFlag unit (String.ofList token)) (.unknownFlag unit (String.ofList twin))

structure Diagnostic.Alike (fault twin : Diagnostic) : Prop where
  line : fault.line = twin.line
  cause : fault.cause.Alike twin.cause

theorem Diagnostic.Alike.refl (fault : Diagnostic) : fault.Alike fault := ⟨rfl, .same _⟩

section Outcome

variable {α β ε : Type} {R : ε → ε → Prop}

inductive SameOutcome (R : ε → ε → Prop) : Except ε α → Except ε α → Prop
  | ok (a : α) : SameOutcome R (.ok a) (.ok a)
  | error {e f : ε} (h : R e f) : SameOutcome R (.error e) (.error f)

theorem SameOutcome.refl (hR : ∀ e, R e e) (x : Except ε α) : SameOutcome R x x := by
  cases x with
  | ok a => exact .ok a
  | error e => exact .error (hR e)

theorem SameOutcome.ok_or_error {x y : Except ε α} (h : SameOutcome R x y) :
    (∃ a, x = .ok a ∧ y = .ok a) ∨ ∃ e f, x = .error e ∧ y = .error f ∧ R e f := by
  cases h with
  | ok a => exact .inl ⟨a, rfl, rfl⟩
  | error h => exact .inr ⟨_, _, rfl, rfl, h⟩

theorem SameOutcome.bind {x y : Except ε α} (h : SameOutcome R x y) {f g : α → Except ε β}
    (hnext : ∀ a, SameOutcome R (f a) (g a)) : SameOutcome R (x >>= f) (y >>= g) := by
  cases h with
  | ok a => exact hnext a
  | error h => exact .error h

theorem SameOutcome.foldlM {step : β → α → Except ε β} {Q : α → α → Prop}
    (hstep : ∀ b a c, Q a c → SameOutcome R (step b a) (step b c)) {xs ys : List α}
    (h : List.Forall₂ Q xs ys) (b : β) : SameOutcome R (xs.foldlM step b) (ys.foldlM step b) := by
  induction h generalizing b with
  | nil => exact .ok b
  | cons hhead _ ih =>
    rw [List.foldlM_cons, List.foldlM_cons]
    exact (hstep b _ _ hhead).bind ih

end Outcome

/-! ## Directives -/

theorem items_plain (value : List Char) : items (plain value) = (items value).map plain := by
  have htrim : trim ∘ plain = plain ∘ trim := funext trim_plain
  unfold items
  rw [pieces_plain (by decide), List.map_map, htrim, ← List.map_map, List.filter_map]
  congr 1
  apply List.filter_congr
  intro item _
  simp [isEmpty_plain]

theorem forall₂_items {value twin : List Char} (h : plain value = plain twin) :
    List.Forall₂ (fun item other => plain item = plain other) (items value) (items twin) := by
  apply forall₂_of_map_eq
  rw [← items_plain, h, items_plain]

theorem addHost_of_plain_eq (unit : Installable) {item twin : List Char}
    (h : plain item = plain twin) : addHost unit item = addHost unit twin := by
  unfold addHost
  rw [lower_eq_of_plain_eq h]

theorem ofToken?_plain (token : List Char) : Flag.ofToken? (plain token) = Flag.ofToken? token := by
  unfold Flag.ofToken?
  rw [trim_plain, show (plain (trim token)).map Char.toLower = plain (plain (trim token)) from rfl,
    plain_idem]
  rfl

theorem addFlag_alike (unit : Installable) {item twin : List Char} (h : plain item = plain twin) :
    SameOutcome Cause.Alike (addFlag unit item) (addFlag unit twin) := by
  have hflag : Flag.ofToken? item = Flag.ofToken? twin := by
    rw [← ofToken?_plain, h, ofToken?_plain]
  unfold addFlag
  rw [hflag]
  cases Flag.ofToken? twin with
  | none => exact .error (.unknownFlag unit.name h)
  | some flag => exact .refl .same _

theorem applyDirective_alike (sourcesDir : Path) (unit : Installable) {key : Key}
    (hkey : key.ignoresCase = true) {value twin : List Char} (h : plain value = plain twin) :
    SameOutcome Cause.Alike (applyDirective sourcesDir unit key value)
      (applyDirective sourcesDir unit key twin) := by
  cases key with
  | hosts =>
    apply SameOutcome.foldlM _ (forall₂_items h)
    intro unit item other hitem
    rw [addHost_of_plain_eq unit hitem]
    exact .refl .same _
  | flags =>
    refine SameOutcome.bind ?_ fun unit => .refl .same _
    apply SameOutcome.foldlM _ (forall₂_items h)
    intro unit item other hitem
    exact addFlag_alike unit hitem
  | deb | repo | source | pre | post | package => cases hkey

/-! ## Reading -/

theorem plain_parts {before after twinBefore twinAfter : List Char} (hbefore : ':' ∉ before)
    (htwin : ':' ∉ twinBefore)
    (h : plain (before ++ ':' :: after) = plain (twinBefore ++ ':' :: twinAfter)) :
    plain before = plain twinBefore ∧ plain after = plain twinAfter := by
  have hcut : ∀ {s : List Char} (t : List Char), ':' ∉ s →
      cut? (· = ':') (plain (s ++ ':' :: t)) = some (plain s, plain t) := by
    intro s t hs
    rw [plain_append]
    exact cut?_of_not_mem ((not_mem_plain (by decide)).mpr hs) (plain t)
  have hpair := hcut after hbefore
  rw [h, hcut twinAfter htwin, Option.some.injEq, Prod.mk.injEq] at hpair
  exact ⟨hpair.1.symm, hpair.2.symm⟩

theorem HasParts.not_blank {line : Line} {before after : List Char}
    (h : HasParts line before after) : line.isBlank = false := by
  unfold Line.isBlank
  rw [h.split, List.all_eq_false]
  exact ⟨':', by simp, by decide⟩

theorem HasParts.cut {line : Line} {before after : List Char} (h : HasParts line before after) :
    cut? (· = ':') (trimStart line.text) = some (trimStart before, after) := by
  rw [cut?_trimStart (by simp; decide), h.split, cut?_of_not_mem h.first]
  rfl

namespace Reading

theorem directiveLine_alike (sourcesDir : Path) (reading : Reading) {line twin : Line}
    {before after twinBefore twinAfter : List Char} (hline : HasParts line before after)
    (htwin : HasParts twin twinBefore twinAfter) (hplain : line.plain = twin.plain)
    (hvalue : after = twinAfter ∨
      ∃ key, Key.ignoresCase key = true ∧ lower (trim before) = key.token.toList) :
    SameOutcome Diagnostic.Alike (reading.directiveLine sourcesDir line)
      (reading.directiveLine sourcesDir twin) := by
  obtain ⟨hnumber, htext⟩ := Line.mk.inj hplain
  simp only [hline.split, htwin.split] at htext
  obtain ⟨hbefore, hafter⟩ := plain_parts hline.first htwin.first htext
  have htrim : ∀ {s t : List Char}, plain s = plain t → plain (trim s) = plain (trim t) := by
    intro s t h
    rw [← trim_plain, h, trim_plain]
  have hkey : lower (trim before) = lower (trim twinBefore) := lower_eq_of_plain_eq (htrim hbefore)
  have hempty : (trim after).isEmpty = (trim twinAfter).isEmpty := by
    rw [← isEmpty_plain, htrim hafter, isEmpty_plain]
  unfold directiveLine
  simp only [hline.cut, htwin.cut, trim_trimStart, hkey, hempty, hnumber]
  split
  · exact .refl .refl _
  cases reading.draft? with
  | none => exact .refl .refl _
  | some draft =>
    simp only
    split
    · exact .refl .refl _
    cases hknown : Key.ofText? (lower (trim twinBefore)) with
    | none => exact .refl .refl _
    | some known =>
      simp only
      have happly : SameOutcome Cause.Alike
          (applyDirective sourcesDir draft.unit known (trim after))
          (applyDirective sourcesDir draft.unit known (trim twinAfter)) := by
        rcases hvalue with rfl | ⟨key, hignores, hname⟩
        · exact .refl .same _
        · -- Values that differ are those of a key that ignores letter case, and this is the key.
          have hsame := ofText?_lower_eq_some_iff.mpr hname
          rw [hkey, hknown] at hsame
          obtain rfl := Option.some.inj hsame
          exact applyDirective_alike sourcesDir draft.unit hignores (htrim hafter)
      rcases happly.ok_or_error with ⟨unit, hleft, hright⟩ | ⟨cause, other, hleft, hright, halike⟩
      · simp only [hleft, hright]
        exact .refl .refl _
      · simp only [hleft, hright]
        exact .error ⟨rfl, halike⟩

theorem feed_alike (sourcesDir : Path) (reading : Reading) {line twin : Line}
    (hplain : line.plain = twin.plain) (h : SameElsewhere line twin) :
    SameOutcome Diagnostic.Alike (reading.feed sourcesDir line) (reading.feed sourcesDir twin) := by
  rcases h with htext | ⟨before, after, twinBefore, twinAfter, hline, htwin, hvalue⟩
  · have hsame : line = twin := by
      obtain ⟨hnumber, -⟩ := Line.mk.inj hplain
      cases line
      cases twin
      simp_all
    rw [hsame]
    exact .refl .refl _
  · have hdirective := directiveLine_alike sourcesDir reading hline htwin hplain hvalue
    unfold feed
    rw [hline.not_blank, htwin.not_blank, hline.indented, htwin.indented]
    exact hdirective

end Reading

theorem parse_alike {text twin : List Char} (h : Respelled text twin) (sourcesDir : Path) :
    SameOutcome Diagnostic.Alike (parse sourcesDir text) (parse sourcesDir twin) := by
  unfold parse ofLines
  apply SameOutcome.bind
  · apply SameOutcome.foldlM _ h.lines
    intro reading line other hline
    exact Reading.feed_alike sourcesDir reading hline.1 hline.2
  · intro reading
    exact .refl .refl _

end Document

/-! ## Plans -/

open Text Document

theorem Host.accepts_of_plain_eq (patterns : List (List Char)) {host twin : List Char}
    (h : plain host = plain twin) : Host.accepts patterns host = Host.accepts patterns twin := by
  unfold Host.accepts
  rw [lower_eq_of_plain_eq h]

theorem plan_of_plain_eq (catalog : Catalog) (criteria : Criteria) (snapshot : Snapshot)
    {host twin : String} (h : plain host.toList = plain twin.toList) :
    plan catalog criteria snapshot host = plan catalog criteria snapshot twin := by
  unfold plan Criteria.judge
  simp only [Host.accepts_of_plain_eq _ h]

/-- Documents that differ only in letter case that does not count are both accepted, with the same
catalog, or both refused; and whoever asks, the plan is the same under any spelling of the host. -/
theorem plan_of_respelled {text twin : List Char} (h : Respelled text twin) {host twinHost : String}
    (hhost : plain host.toList = plain twinHost.toList) (sourcesDir : Path) :
    (∃ catalog, parse sourcesDir text = .ok catalog ∧ parse sourcesDir twin = .ok catalog ∧
      ∀ criteria snapshot,
        plan catalog criteria snapshot host = plan catalog criteria snapshot twinHost) ∨
    ∃ fault twinFault, parse sourcesDir text = .error fault ∧
      parse sourcesDir twin = .error twinFault ∧ fault.Alike twinFault := by
  rcases (parse_alike h sourcesDir).ok_or_error with ⟨catalog, htext, htwin⟩ | hrefused
  · refine .inl ⟨catalog, htext, htwin, ?_⟩
    intro criteria snapshot
    exact plan_of_plain_eq catalog criteria snapshot hhost
  · exact .inr hrefused

def excludingText : List Char := "a:\n  FLAGS: Lead\n  hosts: !N1".toList

def excludingTwin : List Char := "a:\n  flags: lead\n  Hosts: !n1".toList

theorem respelled_excluding : Respelled excludingText excludingTwin where
  letters := by decide +kernel
  elsewhere := by
    have hpairs : (logicalLines excludingText).zip (logicalLines excludingTwin) =
        [(⟨1, "a:".toList⟩, ⟨1, "a:".toList⟩),
          (⟨2, "  FLAGS: Lead".toList⟩, ⟨2, "  flags: lead".toList⟩),
          (⟨3, "  hosts: !N1".toList⟩, ⟨3, "  Hosts: !n1".toList⟩)] := by
      decide +kernel
    rw [hpairs, List.forall_mem_cons, List.forall_mem_cons, List.forall_mem_singleton]
    refine ⟨.inl rfl, .inr ⟨"  FLAGS".toList, " Lead".toList, "  flags".toList, " lead".toList, ?_⟩,
      .inr ⟨"  hosts".toList, " !N1".toList, "  Hosts".toList, " !n1".toList, ?_⟩⟩
    · exact ⟨⟨by decide, rfl, by decide⟩, ⟨by decide, rfl, by decide⟩,
        .inr ⟨.flags, rfl, by decide +kernel⟩⟩
    · exact ⟨⟨by decide, rfl, by decide⟩, ⟨by decide, rfl, by decide⟩,
        .inr ⟨.hosts, rfl, by decide +kernel⟩⟩

/-- An exclusion that is written in capitals holds for a host that is written in small letters. -/
theorem plan_of_respelled_exclusion :
    Respelled excludingText excludingTwin ∧ plain "N1".toList = plain "n1".toList ∧
      ∃ catalog, parse ⟨"s"⟩ excludingText = .ok catalog ∧ parse ⟨"s"⟩ excludingTwin = .ok catalog ∧
        (∀ criteria snapshot,
          plan catalog criteria snapshot "N1" = plan catalog criteria snapshot "n1") ∧
        plan catalog {} {} "n1" = [⟨1, "a", .lead, .skip .hostname⟩] := by
  have hhost : plain "N1".toList = plain "n1".toList := by decide
  have hparse : parse ⟨"s"⟩ excludingText =
      .ok ⟨[⟨1, { name := "a", flags := [.lead], hosts := ["!n1"] }⟩]⟩ := by
    decide +kernel
  refine ⟨respelled_excluding, hhost, ?_⟩
  rcases plan_of_respelled respelled_excluding hhost ⟨"s"⟩ with
    ⟨catalog, htext, htwin, hplan⟩ | ⟨fault, -, hfault, -⟩
  · refine ⟨catalog, htext, htwin, hplan, ?_⟩
    obtain rfl := Except.ok.inj (hparse.symm.trans htext)
    decide +kernel
  · cases hparse.symm.trans hfault

end Provision
