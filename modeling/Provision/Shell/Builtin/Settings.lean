import Provision.Shell.Condition
import Provision.Shell.Options

/-!
# Settings of the shell

Options with letters, which `set` changes, options with names alone, which `shopt` changes, the
positional parameters, and the permissions that new files do not get.
-/

namespace Provision.Shell.Builtin

/-! ## Options with letters -/

/-- All options of `set` with their letters. -/
def settings : List (String × Option Char) :=
  [("allexport", some 'a'), ("braceexpand", some 'B'), ("emacs", none), ("errexit", some 'e'),
    ("errtrace", some 'E'), ("functrace", some 'T'), ("hashall", some 'h'),
    ("histexpand", some 'H'), ("history", none), ("ignoreeof", none),
    ("interactive-comments", none), ("keyword", some 'k'), ("monitor", some 'm'),
    ("noclobber", some 'C'), ("noexec", some 'n'), ("noglob", some 'f'), ("nolog", none),
    ("notify", some 'b'), ("nounset", some 'u'), ("onecmd", some 't'), ("physical", some 'P'),
    ("pipefail", none), ("posix", none), ("privileged", some 'p'), ("verbose", some 'v'),
    ("vi", none), ("xtrace", some 'x')]

def settingOf? (letter : Char) : Option String :=
  (settings.find? fun entry => entry.2 = some letter).map (·.1)

def switched (options : List String) (on : Bool) (name : String) : List String :=
  let others := options.filter (· != name)
  if on then others ++ [name] else others

def switch (on : Bool) (name : String) : Act Unit :=
  modify fun state => { state with options := switched state.options on name }

/-- A name and whether it is on, in two columns. -/
def settingLine (name : String) (on : Bool) : Bytes :=
  name.toList.rightpad 15 ' ' ++ '\t' :: (if on then "on\n" else "off\n").toList

def listSettings (asCommands : Bool) : Act Unit := do
  let state ← get
  for (name, _) in settings do
    let on := state.has name
    let sign := if on then '-' else '+'
    let command := s!"set {sign}o {name}\n"
    discard (Act.write 1 (if asCommands then command.toList else settingLine name on))

/-! ## The builtin `set` -/

/-- How a word of `set` ends. -/
inductive Setting where
  | more (words : List Bytes)
  | done (positional? : Option (List Bytes))
  | refused

/-- Follows the letters of one word; an `o` takes its name from the words behind. -/
def setLetters (on : Bool) : Bytes → List Bytes → Act (Option (List Bytes))
  | [], words => return some words
  | 'o' :: rest, words => do
    match words with
    | [] =>
      listSettings (!on)
      setLetters on rest []
    | name :: words =>
      if settings.any fun entry => entry.1 = String.ofList name then
        switch on (String.ofList name)
        setLetters on rest words
      else
        Act.complainOf "set" s!"{shown name}: invalid option name"
        return none
  | letter :: rest, words => do
    match settingOf? letter with
    | some name =>
      switch on name
      setLetters on rest words
    | none =>
      let sign := if on then '-' else '+'
      Act.complainOf "set" s!"{sign}{letter}: invalid option"
      return none

def setWord (words : List Bytes) : Act Setting := do
  match words with
  | [] => return .done none
  | ['-', '-'] :: rest => return .done (some rest)
  | ['-'] :: rest =>
    switch false "xtrace"
    switch false "verbose"
    return .done (if rest.isEmpty then none else some rest)
  | word :: rest =>
    match word with
    | sign :: letter :: letters =>
      if sign = '-' || sign = '+' then
        match ← setLetters (sign == '-') (letter :: letters) rest with
        | some rest => return .more rest
        | none => return .refused
      else return .done (some (word :: rest))
    | _ => return .done (some (word :: rest))

/-- Letters that are no options are found before anything is set. -/
def unknownLetter? (words : List Bytes) : Option Bytes :=
  words.findSome? fun word =>
    match word with
    | sign :: letters =>
      if sign != '-' && sign != '+' then none
      else (letters.find? fun c => c != 'o' && c != '-' && (settingOf? c).isNone).map ([sign, ·])
    | [] => none

def setAll : Nat → List Bytes → Act Unit
  | 0, _ => Act.succeed
  | limit + 1, words => do
    match ← setWord words with
    | .more rest => setAll limit rest
    | .refused => Act.finish 2
    | .done positional? =>
      if let some positional := positional? then
        modify fun state => { state with positional }
      Act.succeed

def optionWords : List Bytes → List Bytes
  | ['-', '-'] :: _ => []
  | ['-', 'o'] :: _ :: rest => optionWords rest
  | word :: rest =>
    if word.length < 2 || (word.head? != some '-' && word.head? != some '+') then []
    else word :: optionWords rest
  | [] => []

/-- Prints the variables as assignments. -/
def listVariables : Act Unit := do
  let state ← get
  let names := (state.scopes.flatMap fun scope => scope.map (·.1)).eraseDups.mergeSort inOrder
  for name in names do
    if let some (.scalar text) := state.value? name then
      let plain := text.all fun c => isNameChar c || "%+,-./:=@".toList.contains c
      let value := if plain then text else Engine.reusable text
      discard (Act.write 1 (name ++ '=' :: value ++ ['\n']))

def configure (words : List Bytes) : Act Unit := do
  if words.isEmpty then
    listVariables
    Act.succeed
  else match unknownLetter? (optionWords words) with
    | some letter =>
      Act.complainOf "set" s!"{shown letter}: invalid option"
      let usage := "set: usage: set [-abefhkmnptuvxBCEHPT] [-o option-name] [--] [-] [arg ...]\n"
      discard (Act.write 2 usage.toList)
      Act.finish 2
    | none => setAll (words.length + 1) words

/-! ## Options with names -/

/-- All options of `shopt`. -/
def extras : List String :=
  ["autocd", "assoc_expand_once", "cdable_vars", "cdspell", "checkhash", "checkjobs",
    "checkwinsize", "cmdhist", "compat31", "compat32", "compat40", "compat41", "compat42",
    "compat43", "compat44", "complete_fullquote", "direxpand", "dirspell", "dotglob", "execfail",
    "expand_aliases", "extdebug", "extglob", "extquote", "failglob", "force_fignore",
    "globasciiranges", "globskipdots", "globstar", "gnu_errfmt", "histappend", "histreedit",
    "histverify", "hostcomplete", "huponexit", "inherit_errexit", "interactive_comments",
    "lastpipe", "lithist", "localvar_inherit", "localvar_unset", "login_shell", "mailwarn",
    "no_empty_cmd_completion", "nocaseglob", "nocasematch", "noexpand_translation", "nullglob",
    "patsub_replacement", "progcomp", "progcomp_alias", "promptvars", "restricted_shell",
    "shift_verbose", "sourcepath", "varredir_close", "xpg_echo"]

/-- The options that are on when a shell starts. -/
def initialExtras : List String :=
  ["checkwinsize", "cmdhist", "complete_fullquote", "extquote", "force_fignore",
    "globasciiranges", "globskipdots", "hostcomplete", "interactive_comments",
    "patsub_replacement", "progcomp", "promptvars", "sourcepath"]

/-- Shows or changes one option; false if it is off or unknown. -/
def shoptOne (options : Options) (name : String) : Act Bool := do
  let ofSet := options.has 'o'
  let known := if ofSet then settings.map (·.1) else extras
  if !known.contains name then
    let kind := if ofSet then "" else "shell "
    Act.complainOf "shopt" s!"{name}: invalid {kind}option name"
    return false
  let state ← get
  let isOn := if ofSet then state.has name else state.hasExtra name
  if options.has 's' || options.has 'u' then
    let on := options.has 's'
    if ofSet then switch on name
    else modify fun state => { state with extras := switched state.extras on name }
    return true
  else
    let sign := if isOn then '-' else '+'
    let letter := if isOn then 's' else 'u'
    let command := if ofSet then s!"set {sign}o {name}\n" else s!"shopt -{letter} {name}\n"
    if !options.has 'q' then
      discard (Act.write 1 (if options.has 'p' then command.toList else settingLine name isOn))
    return isOn

/-- Shows all options, or those that are on or off. -/
def shoptList (options : Options) : Act Unit := do
  let state ← get
  let names := if options.has 'o' then settings.map (·.1) else extras
  let isOn (name : String) : Bool := if options.has 'o' then state.has name else state.hasExtra name
  let asked := names.filter fun name =>
    if options.has 's' then isOn name else if options.has 'u' then !isOn name else true
  let showing : Options :=
    { options with given := options.given.filter fun given => given.1 = 'o' || given.1 = 'p' }
  for name in asked do discard (shoptOne showing name)
  Act.succeed

def shopt (words : List Bytes) : Act Unit :=
  Act.withOptions "shopt" "supqo" "" words fun options => do
    if options.operands.isEmpty then shoptList options
    else
      let done ← options.operands.foldlM (fun done word =>
        return (← shoptOne options (String.ofList word)) && done) true
      if done then Act.succeed else Act.fail

/-! ## Positional parameters -/

/-- Leaves the shell because a builtin was given one word too many. -/
def tooMany {α : Type} (name : String) : Act α := do
  Act.complainOf name "too many arguments"
  Act.fail
  Act.jump .exit

def shift (words : List Bytes) : Act Unit := do
  let size := (← get).positional.length
  let drop (n : Nat) : Act Unit := do
    modify fun state => { state with positional := state.positional.drop n }
    Act.succeed
  match if words.head? = some ['-', '-'] then words.drop 1 else words with
  | [] => if size = 0 then Act.fail else drop 1
  | [word] =>
    match integer? word with
    | some (.ofNat n) => if size < n then Act.fail else drop n
    | some (.negSucc _) =>
      Act.complainOf "shift" s!"{shown word}: shift count out of range"
      Act.fail
    | none =>
      Act.complainOf "shift" s!"{shown word}: numeric argument required"
      Act.fail
  | _ => tooMany "shift"

/-! ## Permissions -/

/-- The letters of the permissions in three bits. -/
def permissionLetters (n : Nat) : String :=
  String.ofList ((if n / 4 % 2 = 1 then ['r'] else []) ++ (if n / 2 % 2 = 1 then ['w'] else []) ++
    (if n % 2 = 1 then ['x'] else []))

def permissionBit (c : Char) : Nat :=
  match c with
  | 'r' => 4
  | 'w' => 2
  | 'x' => 1
  | _ => 0

/-- The permissions that one clause such as `g+w` leaves. -/
def applyClause? (granted : Nat) (clause : Bytes) : Option Nat :=
  let who := clause.takeWhile "ugoa".toList.contains
  match clause.drop who.length with
  | operator :: letters =>
    if !"+-=".toList.contains operator || !letters.all "rwxXst".toList.contains then none
    else
      let bits := (letters.map permissionBit).foldl (· ||| ·) 0
      let everyone := who.isEmpty || who.contains 'a'
      let update (member : Char) (old : Nat) : Nat :=
        if !everyone && !who.contains member then old
        else if operator = '+' then old ||| bits
        else if operator = '-' then old - (old &&& bits)
        else bits
      some (update 'u' (granted / 64 % 8) * 64 + update 'g' (granted / 8 % 8) * 8 +
        update 'o' (granted % 8))
  | [] => none

def splitCommas (text : Bytes) : List Bytes :=
  (text.splitBy fun a b => a != ',' && b != ',').filter (· != [','])

def umask (words : List Bytes) : Act Unit :=
  Act.withOptions "umask" "Sp" "" words fun options => do
    let mask := (← get).mask
    match options.operands with
    | [] =>
      let octal := (Nat.toDigits 8 mask).leftpad 4 '0'
      let granted := 511 - mask
      let symbols := "u=" ++ permissionLetters (granted / 64) ++
        ",g=" ++ permissionLetters (granted / 8) ++ ",o=" ++ permissionLetters granted
      let value := if options.has 'S' then symbols else String.ofList octal
      let command := if options.has 'S' then "umask -S " else "umask "
      let start := if options.has 'p' then command else ""
      discard (Act.write 1 (start ++ value ++ "\n").toList)
      Act.succeed
    | word :: _ =>
      let new? := if word.head?.any Char.isDigit then
          (if word.all (fun c => (octalDigit? c).isSome) then
            some (word.foldl (fun n c => n * 8 + (c.toNat - 0x30)) 0)
          else none).filter (· < 512)
        else ((splitCommas word).foldlM applyClause? (511 - mask)).map (511 - ·)
      match new? with
      | some mask =>
        modify fun state => { state with mask }
        Act.succeed
      | none =>
        let letter := String.ofList (word.take 1)
        Act.complainOf "umask" (if word.head?.any Char.isDigit then
            s!"{shown word}: octal number out of range"
          else s!"{backquote}{letter}{apostrophe}: invalid symbolic mode operator")
        Act.fail

/-- Nothing is limited here. -/
def ulimit (words : List Bytes) : Act Unit :=
  Act.withOptions "ulimit" "SHabcdefiklmnpqrstuvxPRT" "" words fun options => do
    match options.operands with
    | [] =>
      discard (Act.write 1 "unlimited\n".toList)
      Act.succeed
    | word :: _ =>
      if ["hard", "soft", "unlimited"].contains (String.ofList word) || word.all Char.isDigit then
        Act.succeed
      else
        Act.complainOf "ulimit" s!"{shown word}: invalid number"
        Act.fail

end Provision.Shell.Builtin
