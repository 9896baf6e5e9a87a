import Provision.Document.Reading

/-!
# One step of reading

What closing a unit and feeding a line do when they succeed. All that holds of a document that was
read is shown by these steps.
-/

namespace Provision.Document

open Text

section Fold

variable {α β ε : Type} {f : β → α → Except ε β} {b final : β}

theorem foldlM_cons_eq_ok_iff {a : α} {rest : List α} :
    (a :: rest).foldlM f b = .ok final ↔ ∃ next, f b a = .ok next ∧ rest.foldlM f next = .ok final := by
  rw [List.foldlM_cons]
  cases hnext : f b a with
  | error fault => simp [bind, Except.bind]
  | ok next => simp [bind, Except.bind]

theorem foldlM_append_eq_ok_iff {front back : List α} :
    (front ++ back).foldlM f b = .ok final ↔
      ∃ next, front.foldlM f b = .ok next ∧ back.foldlM f next = .ok final := by
  rw [List.foldlM_append]
  cases hnext : front.foldlM f b with
  | error fault => simp [bind, Except.bind]
  | ok next => simp [bind, Except.bind]

theorem foldlM_preserves {P : β → Prop} (step : ∀ b a next, P b → f b a = .ok next → P next)
    {xs : List α} (hb : P b) (h : xs.foldlM f b = .ok final) : P final := by
  induction xs generalizing b with
  | nil =>
    obtain rfl := Except.ok.inj h
    exact hb
  | cons a rest ih =>
    obtain ⟨next, hnext, hrest⟩ := foldlM_cons_eq_ok_iff.mp h
    exact ih (step b a next hb hnext) hrest

end Fold

/-- A name that a unit line may declare. -/
structure IsUnitName (name : List Char) : Prop where
  no_colon : ':' ∉ name
  ne_nil : name ≠ []
  no_slash : '/' ∉ name

namespace Reading

theorem nameFault?_eq_none_iff {text name : List Char} :
    nameFault? text name = none ↔ IsUnitName name := by
  unfold nameFault?
  constructor
  · intro h
    split at h
    · cases h
    · split at h
      · cases h
      · split at h
        · cases h
        · exact ⟨by simp_all, by simp_all, by simp_all⟩
  · rintro ⟨hcolon, hne, hslash⟩
    simp [hcolon, hne, hslash]

theorem close_eq_ok_iff {reading closed : Reading} :
    reading.close = .ok closed ↔
      (reading.draft? = none ∧ closed = reading) ∨
      ∃ draft, reading.draft? = some draft ∧ (draft.block = true → draft.directives ≠ 0) ∧
        reading.catalog.entry? draft.unit.name = none ∧
        closed = ⟨⟨reading.catalog.entries ++ [⟨draft.line, draft.unit⟩]⟩, none⟩ := by
  unfold close Catalog.append
  cases hdraft : reading.draft? with
  | none =>
    constructor
    · intro h
      exact .inl ⟨rfl, (Except.ok.inj h).symm⟩
    · rintro (⟨-, rfl⟩ | ⟨draft, hsome, -⟩)
      · rfl
      · cases hsome
  | some draft =>
    have hfilled : ¬ (draft.block && decide (draft.directives = 0)) = true ↔
        (draft.block = true → draft.directives ≠ 0) := by
      simp
    simp only [reduceCtorEq, false_and, Option.some.injEq, exists_eq_left', false_or]
    rw [← hfilled]
    by_cases hmissing : (draft.block && decide (draft.directives = 0)) = true
    · simp [hmissing]
    · rw [if_neg hmissing]
      cases hentry : reading.catalog.entry? draft.unit.name with
      | none => simp [Except.map, hmissing, eq_comm]
      | some first => simp [Except.map]

theorem unitLine_eq_ok_iff {reading next : Reading} {line : Line} :
    reading.unitLine line = .ok next ↔
      IsUnitName (declared line.text).1 ∧ ∃ closed, reading.close = .ok closed ∧
        closed.catalog.entry? (String.ofList (declared line.text).1) = none ∧
        next = { closed with draft? := some {
          line := line.number
          unit := { name := String.ofList (declared line.text).1 }
          block := (declared line.text).2 } } := by
  unfold unitLine
  rw [← nameFault?_eq_none_iff]
  cases hfault : nameFault? line.text (declared line.text).1 with
  | some cause => simp [hfault]
  | none =>
    simp only [hfault, true_and]
    cases hclose : reading.close with
    | error fault => simp
    | ok closed =>
      simp only [Except.ok.injEq, exists_eq_left']
      cases hentry : closed.catalog.entry? (String.ofList (declared line.text).1) with
      | none => simp [eq_comm]
      | some first => simp

/-- The key and the value of an indented line; none if one of them is missing. -/
def directive? (line : Line) : Option (Key × List Char) :=
  match cut? (· = ':') (trimStart line.text) with
  | none => none
  | some (before, after) =>
    if (trim after).isEmpty then none else (Key.ofText? (lower (trim before))).map (·, trim after)

theorem directiveLine_eq_ok_iff {sourcesDir : Path} {reading next : Reading} {line : Line} :
    reading.directiveLine sourcesDir line = .ok next ↔
      ∃ key value draft unit, directive? line = some (key, value) ∧
        reading.draft? = some draft ∧ draft.block = true ∧
        applyDirective sourcesDir draft.unit key value = .ok unit ∧
        next = { reading with
          draft? := some { draft with unit, directives := draft.directives + 1 } } := by
  unfold directiveLine directive?
  cases hcut : cut? (· = ':') (trimStart line.text) with
  | none => simp
  | some pair =>
    obtain ⟨before, after⟩ := pair
    simp only
    by_cases hempty : (trim after).isEmpty
    · simp [hempty]
    · rw [if_neg hempty, if_neg hempty]
      cases hdraft : reading.draft? with
      | none => simp
      | some draft =>
        cases hkey : Key.ofText? (lower (trim before)) with
        | none => by_cases hblock : draft.block <;> simp [hblock]
        | some key =>
          simp only [Option.map_some, Option.some.injEq, Prod.mk.injEq]
          by_cases hblock : draft.block
          · cases happly : applyDirective sourcesDir draft.unit key (trim after) with
            | error cause => simp_all
            | ok unit =>
              rw [if_neg (by simp [hblock])]
              constructor
              · intro h
                exact ⟨key, trim after, draft, unit, ⟨rfl, rfl⟩, rfl, hblock, happly,
                  (Except.ok.inj h).symm⟩
              · rintro ⟨_, _, _, other, ⟨rfl, rfl⟩, ⟨rfl⟩, -, hother, rfl⟩
                obtain rfl : unit = other := by simpa [happly] using hother
                rfl
          · simp_all

theorem feed_eq_ok {sourcesDir : Path} {reading next : Reading} {line : Line}
    (h : reading.feed sourcesDir line = .ok next) :
    (line.isBlank = true ∧ next = reading) ∨
      (line.isBlank = false ∧ line.isIndented = true ∧
        reading.directiveLine sourcesDir line = .ok next) ∨
      (line.isBlank = false ∧ line.isIndented = false ∧ reading.unitLine line = .ok next) := by
  unfold feed at h
  split at h
  · next hblank => exact .inl ⟨hblank, (Except.ok.inj h).symm⟩
  · next hblank =>
    split at h
    · next hindented => exact .inr (.inl ⟨by simpa using hblank, hindented, h⟩)
    · next hindented => exact .inr (.inr ⟨by simpa using hblank, by simpa using hindented, h⟩)

end Reading

theorem ofLines_eq_ok_iff {sourcesDir : Path} {lines : List Line} {catalog : Catalog} :
    ofLines sourcesDir lines = .ok catalog ↔
      ∃ reading closed, lines.foldlM (Reading.feed sourcesDir) {} = .ok reading ∧
        reading.close = .ok closed ∧ closed.catalog = catalog := by
  unfold ofLines
  cases hfold : lines.foldlM (Reading.feed sourcesDir) {} with
  | error fault => simp [bind, Except.bind]
  | ok reading =>
    cases hclose : reading.close with
    | error fault => simp [bind, Except.bind, hclose]
    | ok closed => simp [bind, Except.bind, pure, Except.pure, hclose]

end Provision.Document
