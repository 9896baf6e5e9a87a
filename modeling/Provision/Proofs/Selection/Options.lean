import Mathlib.Logic.Basic
import Provision.Arguments.Reading

/-!
# Options that take lists

An option that takes a list may stand more than once, and its values add up. What a command line
gives to it is seen in the words alone, one after the other, whatever the other options are.
-/

namespace Provision

/-- The selection of a job that has one. -/
def Job.select? : Job → Option SelectOptions
  | validate _ => none
  | plan _ select _ => some select
  | install _ select _ _ => some select

namespace Arguments

open Text

theorem bind_eq_ok_iff {ε α β : Type} {x : Except ε α} {f : α → Except ε β} {b : β} :
    (x >>= f) = .ok b ↔ ∃ a, x = .ok a ∧ f a = .ok b := by
  cases x <;> simp [bind, Except.bind]

/-! ## Values in words -/

namespace Opt

/-- The next word, unless it is the `--` that ends the options. -/
def following? (words : List String) : Option String := words.head?.filter (· != "--")

/-- The value that a word gives to an option: behind an equals sign, or as the next word. -/
def valueIn (opt : Opt) (word : String) (rest : List String) : List String :=
  match word.toList with
  | '-' :: '-' :: body =>
    match cut? (· = '=') body with
    | some (name, value) => if opt.name = String.ofList name then [String.ofList value] else []
    | none => if opt.name = String.ofList body then (following? rest).toList else []
  | _ => []

/-- The values that words give to an option. Behind a `--` there are none. -/
def valuesIn (opt : Opt) : List String → List String
  | [] => []
  | word :: rest => if word = "--" then [] else opt.valueIn word rest ++ opt.valuesIn rest

theorem name_injective {a b : Opt} (h : a.name = b.name) : a = b := by
  cases a <;> cases b <;> first | rfl | (simp [name] at h)

theorem ne_dashes {word : String} (h : word.toList ≠ ['-', '-']) : word ≠ "--" := by
  rintro rfl
  exact h rfl

theorem following?_cons {word : String} (h : word ≠ "--") (rest : List String) :
    following? (word :: rest) = some word := by
  simp [following?, h]

theorem valuesIn_cons_plain (opt : Opt) {word : String} (rest : List String)
    (h : ∀ body, word.toList ≠ '-' :: '-' :: body) :
    opt.valuesIn (word :: rest) = opt.valuesIn rest := by
  have hnone : opt.valueIn word rest = [] := by
    unfold valueIn
    split
    · next body hword => exact absurd hword (h body)
    · rfl
  rw [valuesIn, if_neg (ne_dashes (h [])), hnone, List.nil_append]

end Opt

/-! ## Taking a value -/

/-- What becomes of the selection when an option takes a value. -/
def Opt.Changes (text : String) (before after : SelectOptions) : Opt → Prop
  | skip => after = { before with skip := before.skip ++ Given.items text }
  | only => after = { before with only := before.only ++ Given.items text }
  | skipFlags => ∃ flags, Given.flags text = .ok flags ∧
      after = { before with skipFlags := before.skipFlags ++ flags }
  | onlyFlags => ∃ flags, Given.flags text = .ok flags ∧
      after = { before with onlyFlags := before.onlyFlags ++ flags }
  | hostname => after = { before with hostname? := text }
  | sourcesDir => ∃ dir, after = { before with sourcesDir? := some dir }
  | _ => after = before

namespace Given

variable {given next : Given} {text : String}

theorem take_changes {opt : Opt} (h : given.take opt text = .ok next) :
    opt.Changes text given.select next.select := by
  unfold take at h
  cases opt
  case skip | only => exact congrArg select (Except.ok.inj h).symm
  case skipFlags | onlyFlags =>
    obtain ⟨flags, hflags, hnext⟩ := bind_eq_ok_iff.mp h
    exact ⟨flags, hflags, congrArg select (Except.ok.inj hnext).symm⟩
  case config =>
    obtain ⟨same, honce, h⟩ := bind_eq_ok_iff.mp h
    obtain ⟨path, -, hnext⟩ := bind_eq_ok_iff.mp h
    cases hsaid : given.config?.isSome <;> rw [hsaid] at honce <;> cases honce
    obtain rfl := Except.ok.inj hnext
    rfl
  case markerRoot =>
    obtain ⟨same, honce, h⟩ := bind_eq_ok_iff.mp h
    obtain ⟨path, -, hnext⟩ := bind_eq_ok_iff.mp h
    cases hsaid : given.markerRoot?.isSome <;> rw [hsaid] at honce <;> cases honce
    obtain rfl := Except.ok.inj hnext
    rfl
  case sourcesDir =>
    obtain ⟨same, honce, h⟩ := bind_eq_ok_iff.mp h
    obtain ⟨dir, -, hnext⟩ := bind_eq_ok_iff.mp h
    exact ⟨dir, congrArg select (Except.ok.inj hnext).symm⟩
  case hostname =>
    cases hsaid : given.select.hostname?.isSome <;> simp only [hsaid] at h <;> cases h
    rfl
  all_goals cases h

theorem switch_select {opt : Opt} (h : given.switch opt = .ok next) :
    next.select = given.select ∨ next.select = { given.select with forceAll := true } := by
  unfold switch at h
  cases opt
  case verbose =>
    obtain rfl := Except.ok.inj h
    exact .inl rfl
  case dryRun =>
    cases hsaid : given.dryRun <;> simp only [hsaid] at h <;> cases h
    exact .inl rfl
  case stopOnError =>
    cases hsaid : given.stopOnError <;> simp only [hsaid] at h <;> cases h
    exact .inl rfl
  case json =>
    cases hsaid : given.json <;> simp only [hsaid] at h <;> cases h
    exact .inl rfl
  case forceAll =>
    cases hsaid : given.select.forceAll <;> simp only [hsaid] at h <;> cases h
    exact .inr rfl
  all_goals cases h

theorem flags_eq_ok {flags : List Flag} (h : Given.flags text = .ok flags) :
    flags.map some = (items text).map fun item => Flag.ofToken? item.toList := by
  unfold Given.flags at h
  generalize items text = tokens at h ⊢
  induction tokens generalizing flags with
  | nil =>
    obtain rfl := Except.ok.inj h
    rfl
  | cons token rest ih =>
    rw [List.mapM_cons] at h
    obtain ⟨flag, hflag, h⟩ := bind_eq_ok_iff.mp h
    obtain ⟨others, hothers, h⟩ := bind_eq_ok_iff.mp h
    obtain rfl := Except.ok.inj h
    have htoken : Flag.ofToken? token.toList = some flag := by
      split at hflag
      · next hread => rw [hread, Except.ok.inj hflag]
      · cases hflag
    rw [List.map_cons, List.map_cons, htoken, ih hothers]

end Given

/-! ## Lists -/

/-- An option that takes a list, where the list is kept, and how its items are read. -/
structure Listing (α : Type) where
  opt : Opt
  get : SelectOptions → List α
  item? : String → Option α
  valued : opt.takesValue = true
  select : opt ∈ Opt.select
  fresh : get {} = []
  forceAll : ∀ select : SelectOptions, get { select with forceAll := true } = get select
  takes : ∀ {text : String} {before after : SelectOptions}, opt.Changes text before after →
    ∃ new, get after = get before ++ new ∧ new.map some = (Given.items text).map item?
  passes : ∀ {other : Opt} {text : String} {before after : SelectOptions}, other ≠ opt →
    other.Changes text before after → get after = get before

namespace Listing

def names : Listing String where
  opt := .only
  get := SelectOptions.only
  item? := some
  valued := by decide
  select := by decide
  fresh := rfl
  forceAll _ := rfl
  takes := by
    rintro text before after rfl
    exact ⟨Given.items text, rfl, rfl⟩
  passes := by
    intro other text before after hne h
    cases other
    case only => exact absurd rfl hne
    case skipFlags | onlyFlags =>
      obtain ⟨flags, -, rfl⟩ := h
      rfl
    case sourcesDir =>
      obtain ⟨dir, rfl⟩ := h
      rfl
    all_goals rw [show after = _ from h]

def flags : Listing Flag where
  opt := .onlyFlags
  get := SelectOptions.onlyFlags
  item? item := Flag.ofToken? item.toList
  valued := by decide
  select := by decide
  fresh := rfl
  forceAll _ := rfl
  takes := by
    rintro text before after ⟨flags, hflags, rfl⟩
    exact ⟨flags, rfl, Given.flags_eq_ok hflags⟩
  passes := by
    intro other text before after hne h
    cases other
    case onlyFlags => exact absurd rfl hne
    case skipFlags =>
      obtain ⟨flags, -, rfl⟩ := h
      rfl
    case sourcesDir =>
      obtain ⟨dir, rfl⟩ := h
      rfl
    all_goals rw [show after = _ from h]

section Levels

variable {α : Type} (list : Listing α) {level next settled : Level}

/-- What texts say as values of the option, item by item. -/
def read (texts : List String) : List (Option α) := (texts.flatMap Given.items).map list.item?

/-- The value that has been read and is not settled. -/
def held : Option Pending → List String
  | some (.option opt (some text)) => if opt = list.opt then [text] else []
  | _ => []

/-- The value that is still to come, as the next word. -/
def due (words : List String) : Option Pending → List String
  | some (.option opt none) => if opt = list.opt then (Opt.following? words).toList else []
  | _ => []

/-- The values in the words that are left. -/
def ahead (level : Level) (words : List String) : List String :=
  if level.literal then [] else list.due words level.pending? ++ list.opt.valuesIn words

/-- What the option will hold when the words that are left have been read. -/
def outlook (level : Level) (words : List String) : List (Option α) :=
  (list.get level.given.select).map some ++
    list.read (list.held level.pending? ++ list.ahead level words)

theorem read_append (front back : List String) :
    list.read (front ++ back) = list.read front ++ list.read back := by
  simp [read]

theorem outlook_of_idle (h : level.pending? = none) (words : List String) :
    list.outlook level words = (list.get level.given.select).map some ++
      list.read (if level.literal then [] else list.opt.valuesIn words) := by
  simp [outlook, ahead, held, due, h]

theorem get_take {given after : Given} {opt : Opt} {text : String}
    (h : given.take opt text = .ok after) :
    (list.get after.select).map some = (list.get given.select).map some ++
      list.read (list.held (some (.option opt (some text)))) := by
  have hchanges := Given.take_changes h
  by_cases hopt : opt = list.opt
  · subst hopt
    obtain ⟨new, hget, hnew⟩ := list.takes hchanges
    simp [hget, hnew, read, held]
  · simp [list.passes hopt hchanges, read, held, hopt]

/-- What was pending is settled, and the option holds and will hold what it did. -/
structure Settles (before after : Level) : Prop where
  idle : after.pending? = none
  literal : after.literal = before.literal
  verb : after.verb? = before.verb?
  outlook : ∀ words, list.outlook after words = list.outlook before words

theorem settle_settles (h : level.settle = .ok settled) : list.Settles level settled := by
  unfold Level.settle at h
  split at h
  · next hidle =>
    obtain rfl := Except.ok.inj h
    exact ⟨hidle, rfl, rfl, fun _ => rfl⟩
  · cases h
  · next opt text hpending =>
    obtain ⟨given, htake, h⟩ := bind_eq_ok_iff.mp h
    obtain rfl := Except.ok.inj h
    refine ⟨rfl, rfl, rfl, fun words => ?_⟩
    rw [outlook_of_idle list rfl, get_take list htake, List.append_assoc, ← read_append]
    simp [outlook, ahead, due, hpending]
  · next text hpending =>
    split at h
    · cases h
    · obtain rfl := Except.ok.inj h
      refine ⟨rfl, rfl, rfl, fun words => ?_⟩
      rw [outlook_of_idle list rfl]
      simp [outlook, ahead, held, due, hpending]

theorem readSwitch_settles {opt : Opt} (h : level.readSwitch opt = .ok next) :
    list.Settles level next := by
  obtain ⟨settled, hsettle, h⟩ := bind_eq_ok_iff.mp h
  obtain ⟨given, hswitch, h⟩ := bind_eq_ok_iff.mp h
  obtain rfl := Except.ok.inj h
  have hsettled := list.settle_settles hsettle
  refine ⟨hsettled.idle, hsettled.literal, hsettled.verb, fun words => ?_⟩
  have hget : list.get given.select = list.get settled.given.select := by
    rcases Given.switch_select hswitch with hsame | hforced
    · rw [hsame]
    · rw [hforced, list.forceAll]
  have hidle : ({ settled with given } : Level).pending? = none := hsettled.idle
  rw [← hsettled.outlook, outlook_of_idle list hidle, outlook_of_idle list hsettled.idle, hget]

theorem readLetter_settles {letter : Char} (h : level.readLetter letter = .ok next) :
    list.Settles level next := by
  unfold Level.readLetter at h
  split at h
  · cases h
  · exact list.readSwitch_settles h

theorem readLetters_settles {letter : Char} {letters : List Char}
    (h : (letter :: letters).foldlM Level.readLetter level = .ok next) :
    list.Settles level next := by
  induction letters generalizing level letter with
  | nil =>
    obtain ⟨read, hread, h⟩ := bind_eq_ok_iff.mp h
    obtain rfl := Except.ok.inj h
    exact list.readLetter_settles hread
  | cons second rest ih =>
    obtain ⟨read, hread, h⟩ := bind_eq_ok_iff.mp h
    have hfirst := list.readLetter_settles hread
    have hrest := ih h
    exact ⟨hrest.idle, hrest.literal.trans hfirst.literal, hrest.verb.trans hfirst.verb,
      fun words => (hrest.outlook words).trans (hfirst.outlook words)⟩

/-- A word has been read, and the option will hold what it would have held before. -/
structure Reads (word : String) (before after : Level) : Prop where
  verb : after.verb? = before.verb?
  literal : before.literal = false → word ≠ "--" → after.literal = false
  outlook : ∀ rest, list.outlook after rest = list.outlook before (word :: rest)

theorem Settles.reads {word : String} (h : list.Settles level next)
    (hword : ∀ body, word.toList ≠ '-' :: '-' :: body) : list.Reads word level next := by
  refine ⟨h.verb, fun hliteral _ => h.literal.trans hliteral, fun rest => ?_⟩
  rw [← h.outlook, outlook_of_idle list h.idle, outlook_of_idle list h.idle,
    Opt.valuesIn_cons_plain _ _ hword]

theorem name_eq_of_find {opts : List Opt} {name : String} {opt : Opt}
    (h : opts.find? (fun opt => opt.name = name) = some opt) :
    list.opt.name = name ↔ opt = list.opt := by
  have hname : opt.name = name := by simpa using List.find?_some h
  rw [← hname]
  exact ⟨fun heq => (Opt.name_injective heq).symm, fun heq => by rw [heq]⟩

/-- An option is read by its name, in a word that gives this value to the options of the name. -/
theorem outlook_readName {word name : String} {value? : Option String}
    (hliteral : level.literal = false) (hword : word ≠ "--")
    (hvalue : ∀ rest, list.opt.valueIn word rest =
      if list.opt.name = name then (value?.or (Opt.following? rest)).toList else [])
    (h : level.readName name value? = .ok next) : list.Reads word level next := by
  unfold Level.readName at h
  split at h
  · cases h
  next opt hfind =>
  have hname := list.name_eq_of_find hfind
  have hvalues (rest : List String) : list.opt.valuesIn (word :: rest) =
      (if opt = list.opt then (value?.or (Opt.following? rest)).toList else []) ++
        list.opt.valuesIn rest := by
    rw [Opt.valuesIn, if_neg hword, hvalue]
    simp only [hname]
  split at h
  · obtain ⟨settled, hsettle, h⟩ := bind_eq_ok_iff.mp h
    have hsettled := list.settle_settles hsettle
    have hnone : settled.literal = false := hsettled.literal.trans hliteral
    have hbefore (rest : List String) : list.outlook level (word :: rest) =
        (list.get settled.given.select).map some ++ list.read
          ((if opt = list.opt then (value?.or (Opt.following? rest)).toList else []) ++
            list.opt.valuesIn rest) := by
      rw [← hsettled.outlook, outlook_of_idle list hsettled.idle, hnone, ← hvalues]
      rfl
    cases value? with
    | some text =>
      obtain ⟨given, htake, h⟩ := bind_eq_ok_iff.mp h
      obtain rfl := Except.ok.inj h
      refine ⟨hsettled.verb, fun _ _ => hnone, fun rest => ?_⟩
      have hidle : ({ settled with given } : Level).pending? = none := hsettled.idle
      rw [hbefore, outlook_of_idle list hidle, get_take list htake, hnone, read_append]
      simp [held]
    | none =>
      obtain rfl := Except.ok.inj h
      refine ⟨hsettled.verb, fun _ _ => hnone, fun rest => ?_⟩
      rw [hbefore]
      simp [outlook, ahead, held, due, hnone]
  · next hvalued =>
    have hother : opt ≠ list.opt := by
      rintro rfl
      exact hvalued list.valued
    split at h
    · cases h
    · have hsettles := list.readSwitch_settles h
      refine ⟨hsettles.verb, fun _ _ => hsettles.literal.trans hliteral, fun rest => ?_⟩
      rw [← hsettles.outlook, outlook_of_idle list hsettles.idle,
        outlook_of_idle list hsettles.idle, hvalues, if_neg hother, List.nil_append]

theorem reads_readWord {word : String} (hword : ∀ body, level.literal = false →
      word.toList ≠ '-' :: '-' :: body) (h : level.readWord word = .ok next) :
    list.Reads word level next := by
  unfold Level.readWord at h
  split at h
  · next opt value? hawaits hpending =>
    obtain rfl := Except.ok.inj h
    simp only [Level.awaits, hpending, Bool.and_eq_true, Bool.not_eq_true'] at hawaits
    obtain ⟨hliteral, hwaiting⟩ := hawaits
    cases value? with
    | some text => cases hwaiting
    | none =>
      refine ⟨rfl, fun _ _ => hliteral, fun rest => ?_⟩
      have hplain (body : List Char) := hword body hliteral
      have hnext := Opt.following?_cons (Opt.ne_dashes (hplain [])) rest
      have hvalues := list.opt.valuesIn_cons_plain rest hplain
      simp [outlook, ahead, held, due, hliteral, hpending, hnext, hvalues]
  · split at h
    · obtain ⟨settled, hsettle, h⟩ := bind_eq_ok_iff.mp h
      obtain rfl := Except.ok.inj h
      have hsettled := list.settle_settles hsettle
      refine ⟨hsettled.verb, fun hliteral _ => hsettled.literal.trans hliteral, fun rest => ?_⟩
      rw [← hsettled.outlook, outlook_of_idle list hsettled.idle]
      by_cases hliteral : settled.literal = true
      · simp [outlook, ahead, held, hliteral]
      · rw [Bool.not_eq_true] at hliteral
        have hvalues := list.opt.valuesIn_cons_plain rest fun body =>
          hword body (hsettled.literal ▸ hliteral)
        simp [outlook, ahead, held, due, hliteral, hvalues]
    · cases h

/-- Whatever a word is, the option will hold what it would have held before it was read. -/
theorem reads {word : String} (h : level.read word = .ok next) : list.Reads word level next := by
  unfold Level.read at h
  split at h
  · next hliteral =>
    exact list.reads_readWord (fun _ hnot => by rw [hliteral] at hnot; cases hnot) h
  next hliteral =>
  rw [Bool.not_eq_true] at hliteral
  split at h
  · next hdashes =>
    obtain rfl := Except.ok.inj h
    obtain rfl : word = "--" := String.toList_inj.mp hdashes
    refine ⟨rfl, fun _ hne => absurd rfl hne, fun rest => ?_⟩
    have hdue : list.due ("--" :: rest) level.pending? = [] := by
      unfold due
      split
      · simp [Opt.following?]
      · rfl
    simp [outlook, ahead, hliteral, hdue, Opt.valuesIn]
  · next body hempty hbody =>
    have hword : word ≠ "--" := Opt.ne_dashes (by simpa [hbody] using hempty)
    split at h
    · next name value hcut =>
      refine list.outlook_readName hliteral hword (fun rest => ?_) h
      simp [Opt.valueIn, hbody, hcut]
    · next hcut =>
      refine list.outlook_readName hliteral hword (fun rest => ?_) h
      simp [Opt.valueIn, hbody, hcut]
  · next letter letters _ hdash hletters =>
    refine (list.readLetters_settles h).reads list fun body hbody => hdash ?_
    rw [hletters] at hbody
    exact (List.cons.inj (List.cons.inj hbody).2).1
  · next hletters =>
    exact list.reads_readWord (fun body _ hbody => hletters '-' body hbody) h

theorem outlook_foldlM {words : List String} (h : words.foldlM Level.read level = .ok next) :
    list.outlook next [] = list.outlook level words := by
  induction words generalizing level with
  | nil =>
    obtain rfl := Except.ok.inj h
    rfl
  | cons word rest ih =>
    obtain ⟨read, hread, h⟩ := bind_eq_ok_iff.mp h
    rw [ih h, (list.reads hread).outlook]

end Levels

/-! ## Command lines -/

section Commands

variable {α : Type} (list : Listing α) {level next : Level} {words : List String}
  {arguments : Arguments}

theorem not_mem_outer (h : level.verb? = none) : list.opt ∉ level.options := by
  have hselect : ∀ opt ∈ Opt.select, opt.takesValue = true → opt ∉ .version :: Opt.shared := by
    decide
  unfold Level.options
  rw [h]
  exact hselect list.opt list.select list.valued

theorem valueIn_outer {word : String} (hverb : level.verb? = none)
    (hliteral : level.literal = false) (hword : word ≠ "--") (h : level.read word = .ok next)
    (rest : List String) : list.opt.valueIn word rest = [] := by
  have hname {name : String} {value? : Option String} (h : level.readName name value? = .ok next) :
      list.opt.name ≠ name := by
    unfold Level.readName at h
    split at h
    · cases h
    next opt hfind =>
    intro heq
    obtain rfl := (list.name_eq_of_find hfind).mp heq
    exact list.not_mem_outer hverb (List.mem_of_find?_eq_some hfind)
  unfold Level.read at h
  rw [hliteral] at h
  unfold Opt.valueIn
  split
  · next body hbody =>
    rw [hbody] at h
    cases body with
    | nil => exact absurd (String.toList_inj.mp hbody) hword
    | cons c cs =>
      simp only [Bool.false_eq_true, if_false] at h
      split
      · next name value hcut =>
        rw [hcut] at h
        rw [if_neg (hname h)]
      · next hcut =>
        rw [hcut] at h
        rw [if_neg (hname h)]
  · rfl

theorem readFrom_cons_eq_ok {word : String} {rest : List String}
    (h : readFrom level (word :: rest) = .ok arguments) :
    (level.literal = false ∧ ∃ verb, Verb.ofLabel? word = some verb ∧
      readVerb level verb rest = .ok arguments) ∨
    ∃ next, level.read word = .ok next ∧ readFrom next rest = .ok arguments := by
  unfold readFrom at h
  simp only at h
  split at h
  · next hopen =>
    split at h
    · cases h
    · split at h
      · next verb hverb => exact .inl ⟨by simp_all, verb, hverb, h⟩
      · exact .inr (bind_eq_ok_iff.mp h)
  · exact .inr (bind_eq_ok_iff.mp h)

theorem readFrom_of_literal (hverb : level.verb? = none) (hliteral : level.literal = true) :
    readFrom level words ≠ .ok arguments := by
  intro h
  cases words with
  | nil =>
    unfold readFrom at h
    obtain ⟨settled, -, h⟩ := bind_eq_ok_iff.mp h
    cases h
  | cons word rest =>
    rcases readFrom_cons_eq_ok h with ⟨hnot, -⟩ | ⟨next, hread, -⟩
    · rw [hliteral] at hnot
      cases hnot
    · simp [Level.read, Level.readWord, Level.awaits, hliteral, hverb] at hread

/-- The command stands somewhere in the words, and before it there are no values. -/
theorem exists_readVerb (hverb : level.verb? = none) (hliteral : level.literal = false)
    (h : readFrom level words = .ok arguments) :
    ∃ outer verb rest, readVerb outer verb rest = .ok arguments ∧
      list.opt.valuesIn words = list.opt.valuesIn rest := by
  induction words generalizing level with
  | nil =>
    unfold readFrom at h
    obtain ⟨settled, -, h⟩ := bind_eq_ok_iff.mp h
    cases h
  | cons word rest ih =>
    rcases readFrom_cons_eq_ok h with ⟨-, verb, hlabel, hread⟩ | ⟨next, hread, hrest⟩
    · refine ⟨level, verb, rest, hread, list.opt.valuesIn_cons_plain rest ?_⟩
      have hword : verb.label = word := by simpa using List.find?_some hlabel
      rw [← hword]
      intro body
      cases verb <;> simp [Verb.label]
    · -- A word before the command is an option of the program or the value of one.
      have hreads := list.reads hread
      have hnone := hreads.verb.trans hverb
      have hword : word ≠ "--" := by
        rintro rfl
        refine readFrom_of_literal hnone ?_ hrest
        rw [Level.read, hliteral] at hread
        obtain rfl := Except.ok.inj hread
        rfl
      obtain ⟨outer, verb, behind, hbehind, hvalues⟩ :=
        ih hnone (hreads.literal hliteral hword) hrest
      refine ⟨outer, verb, behind, hbehind, ?_⟩
      rw [Opt.valuesIn, if_neg hword, list.valueIn_outer hverb hliteral hword hread,
        List.nil_append, hvalues]

theorem get_of_readVerb {outer : Level} {verb : Verb} {select : SelectOptions}
    (h : readVerb outer verb words = .ok arguments)
    (hselect : arguments.job.select? = some select) :
    (list.get select).map some = list.read (list.opt.valuesIn words) := by
  obtain ⟨last, hlast, h⟩ := bind_eq_ok_iff.mp h
  obtain ⟨inner, hinner, h⟩ := bind_eq_ok_iff.mp h
  obtain ⟨job, hjob, h⟩ := bind_eq_ok_iff.mp h
  obtain ⟨settled, -, h⟩ := bind_eq_ok_iff.mp h
  obtain rfl := Except.ok.inj h
  have hgiven : select = inner.given.select := by
    unfold Verb.job at hjob
    split at hjob
    · cases hjob
    · cases verb <;> obtain rfl := Except.ok.inj hjob <;> cases hselect <;> rfl
  have hsettles := list.settle_settles hinner
  have hend : list.outlook inner [] = (list.get select).map some := by
    rw [outlook_of_idle list hsettles.idle, hgiven]
    cases inner.literal <;> simp [Opt.valuesIn, read]
  have hstart : list.outlook { verb? := some verb } words =
      list.read (list.opt.valuesIn words) := by
    rw [outlook_of_idle list rfl, list.fresh]
    rfl
  rw [← hend, hsettles.outlook, list.outlook_foldlM hlast, hstart]

theorem get_of_parse {select : SelectOptions} (h : parse words = .ok arguments)
    (hselect : arguments.job.select? = some select) :
    (list.get select).map some = list.read (list.opt.valuesIn words) := by
  obtain ⟨outer, verb, rest, hrest, hvalues⟩ := list.exists_readVerb rfl rfl h
  rw [hvalues, list.get_of_readVerb hrest hselect]

end Commands

end Listing

end Arguments

end Provision
