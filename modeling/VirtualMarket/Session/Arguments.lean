/-
VirtualMarket.Session.Arguments — the words of a command line.

An option is given by its name after two dashes, some also by a letter after
one.  Its value is the next word, which must not look like an option, or is
attached: after an equals sign, or right after the letter.  No option may be
given twice.
-/
import VirtualMarket.Decimal.Numeral

namespace VirtualMarket.Session

/-! ## Options -/

inductive Flag where
  | config
  | environment
  | candles
  | snapshot
  | output
  | closeOnly
  | maxCandles
  | logLevel
deriving Repr, DecidableEq

namespace Flag

def ofName? : String → Option Flag
  | "config" => some .config
  | "env" => some .environment
  | "candles" => some .candles
  | "snapshot" => some .snapshot
  | "output" => some .output
  | "close-only" => some .closeOnly
  | "max-candles" => some .maxCandles
  | "log-level" => some .logLevel
  | _ => none

def ofLetter? : Char → Option Flag
  | 'c' => some .config
  | 'e' => some .environment
  | 'o' => some .output
  | _ => none

def takesValue : Flag → Bool
  | .closeOnly => false
  | _ => true

/-- Whether an option takes a given value.  A file has a name, and a number of
bars is a natural number. -/
def accepts (flag : Flag) (value : String) : Bool :=
  match flag with
  | .config => value != ""
  | .candles => value != ""
  | .snapshot => value != ""
  | .output => value != ""
  | .maxCandles => (Decimal.unsigned64.read value.toList).isOk
  | _ => true

end Flag

/-! ## Words -/

/-- A word that looks like an option: the option, and the value attached to
it. -/
structure OptionWord where
  flag : Flag
  attached : Option String

/-- Whether a word looks like an option.  A single dash does not. -/
def looksLikeOption (word : String) : Bool :=
  match word.toList with
  | '-' :: _ :: _ => true
  | _ => false

/-- The value after an equals sign. -/
def attachedAfterEquals : List Char → Option String
  | '=' :: value => some (String.ofList value)
  | _ => none

/-- The value right after a letter; an equals sign may stand between. -/
def attachedAfterLetter : List Char → Option String
  | [] => none
  | '=' :: value => some (String.ofList value)
  | value => some (String.ofList value)

/-- Reads a word as an option. -/
def OptionWord.ofString? (word : String) : Option OptionWord :=
  match word.toList with
  | '-' :: '-' :: text =>
    (Flag.ofName? (String.ofList (text.takeWhile (· != '=')))).map fun flag =>
      ⟨flag, attachedAfterEquals (text.dropWhile (· != '='))⟩
  | '-' :: letter :: text =>
    (Flag.ofLetter? letter).map fun flag => ⟨flag, attachedAfterLetter text⟩
  | _ => none

/-- The options of all words with their values, empty where there is none.  Two
dashes end the options, and nothing may come after them. -/
def readWords : List String → Option (List (Flag × String))
  | [] => some []
  | ["--"] => some []
  | word :: rest =>
    match OptionWord.ofString? word with
    | none => none
    | some ⟨flag, some value⟩ =>
      if flag.takesValue then (readWords rest).map ((flag, value) :: ·) else none
    | some ⟨flag, none⟩ =>
      if flag.takesValue then
        match rest with
        | [] => none
        | value :: rest =>
          if looksLikeOption value then none else (readWords rest).map ((flag, value) :: ·)
      else (readWords rest).map ((flag, "") :: ·)

/-! ## Arguments -/

structure Arguments where
  config : Option String
  /-- The environment whose settings are laid over those of the file. -/
  environment : Option String
  candles : String
  snapshot : Option String
  /-- The file that the report goes to. -/
  output : Option String
  closeOnly : Bool
  /-- The bars to replay at most. -/
  maxCandles : Option Nat
deriving Repr, DecidableEq

/-- The value of an option that is given. -/
def valueOf? (given : List (Flag × String)) (flag : Flag) : Option String :=
  (given.find? fun g => g.1 == flag).map (·.2)

/-- Whether no option is given twice. -/
def distinctFlags : List (Flag × String) → Bool
  | [] => true
  | (flag, _) :: rest => rest.all (fun g => g.1 != flag) && distinctFlags rest

/-- The arguments in the words of a command line; `none` if it is misused. -/
def Arguments.ofWords? (words : List String) : Option Arguments := do
  let given ← readWords words
  if distinctFlags given && given.all fun (flag, value) => flag.accepts value then
    some {
      config := valueOf? given .config
      environment := valueOf? given .environment
      candles := ← valueOf? given .candles
      snapshot := valueOf? given .snapshot
      output := valueOf? given .output
      closeOnly := (valueOf? given .closeOnly).isSome
      maxCandles := (valueOf? given .maxCandles).bind fun value =>
        (Decimal.unsigned64.read value.toList).toOption.map Int.toNat }
  else none

end VirtualMarket.Session
