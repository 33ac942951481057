import ChipEight.Path
import ChipEight.Text.Digit
import ChipEight.Text.Quoted

/-!
# Words of a command line

A word of a command line is an option or a value. An option may be shortened as long
as only one option begins that way, and its value may follow it behind an equals
sign. A word with a dash in front is a value all the same if it is a negative number
or contains a space. Behind the separator `--` every word is a value.

## Main results

* `length_tokens` — no word is lost.
-/

namespace ChipEight.CommandLine

open Text

/-! ## Options -/

/-- What can be chosen on the command line. -/
inductive Choice
  | help
  | steps
  | realtime
  | debug
  | seed
  | config
  | savePng
  | zoom
  | ascii
  | disassemble
  deriving DecidableEq, Repr

/-- One way to write an option. -/
structure Spelling where
  /-- The option as written. -/
  text : String
  /-- What it chooses. -/
  choice : Choice
  /-- Whether it is chosen or declined. -/
  isOn : Bool := true
  deriving DecidableEq, Repr

/-- All spellings, in the order in which they are offered. -/
def spellings : List Spelling :=
  [ ⟨"-h", .help, true⟩, ⟨"--help", .help, true⟩, ⟨"--steps", .steps, true⟩
  , ⟨"--realtime", .realtime, true⟩, ⟨"--no-realtime", .realtime, false⟩
  , ⟨"--debug", .debug, true⟩, ⟨"--no-debug", .debug, false⟩, ⟨"--seed", .seed, true⟩
  , ⟨"--config", .config, true⟩, ⟨"--save-png", .savePng, true⟩, ⟨"--zoom", .zoom, true⟩
  , ⟨"--ascii", .ascii, true⟩, ⟨"--disassemble", .disassemble, true⟩ ]

/-- A choice as messages name it: by all its spellings. -/
def Choice.label (c : Choice) : String :=
  "/".intercalate ((spellings.filter (·.choice == c)).map (·.text))

/-- Whether a choice comes with a value. -/
def Choice.takesValue : Choice → Bool
  | .steps | .seed | .config | .savePng | .zoom => true
  | .help | .realtime | .debug | .ascii | .disassemble => false

/-! ## Errors -/

/-- Why a command line cannot be followed. -/
inductive UsageError
  /-- Several options begin that way. -/
  | ambiguous (word : String) (spellings : List String)
  /-- An option lacks its value. -/
  | valueExpected (choice : Choice)
  /-- An option that takes no value was given one. -/
  | valueRefused (choice : Choice) (value : String)
  /-- An option that takes an integer was given something else. -/
  | notAnInteger (choice : Choice) (value : String)
  /-- No program was named. -/
  | programMissing
  /-- There are words that nothing was done with. -/
  | unrecognized (words : List String)
  /-- The program is not there. -/
  | programNotFound (path : Path)
  deriving DecidableEq, Repr

/-- An error that is about one option. -/
def aboutOption (choice : Choice) (problem : String) : String :=
  "argument " ++ choice.label ++ ": " ++ problem

/-- The wording of an error. -/
def UsageError.message : UsageError → String
  | .ambiguous word spellings =>
    "ambiguous option: " ++ word ++ " could match " ++ ", ".intercalate spellings
  | .valueExpected choice => aboutOption choice "expected one argument"
  | .valueRefused choice value =>
    aboutOption choice ("ignored explicit argument " ++ Quoted.quoted value)
  | .notAnInteger choice value =>
    aboutOption choice ("invalid int value: " ++ Quoted.quoted value)
  | .programMissing => "the following arguments are required: rom"
  | .unrecognized words => "unrecognized arguments: " ++ " ".intercalate words
  | .programNotFound path => "ROM not found: " ++ path.text

/-! ## Classification -/

/-- What a word is taken for. -/
inductive Token
  /-- A value, be it that of an option or the program. -/
  | value (text : String)
  /-- The mark behind which all words are values. -/
  | separator
  /-- An option, with the value that is attached to it. -/
  | option (spelling : Spelling) (attached : Option String)
  /-- A word with a dash in front that is nothing else. -/
  | unknown (text : String)
  deriving DecidableEq, Repr

/-- The mark behind which all words are values. -/
def separatorText : String := "--"

/-- Splits a word into an option and the value behind its first equals sign. -/
def splitValue (word : List Char) : List Char × Option String :=
  match word.dropWhile (· != '=') with
  | [] => (word, none)
  | _ :: value => (word.takeWhile (· != '='), some (String.ofList value))

/-- The spelling with the given characters. -/
def spelled? (name : List Char) : Option Spelling :=
  spellings.find? fun s => s.text.toList == name

/-- What is attached to an option that is one letter. The letter may be repeated, which
changes nothing; anything behind it is a value. -/
def attachedToLetter (letter : Char) (attached : String) : Option String :=
  if attached.isEmpty then some attached
  else match attached.toList.dropWhile (· == letter) with
    | [] => none
    | rest => some (String.ofList rest)

/-- An option together with what is attached to it. -/
def attach (s : Spelling) (attached : Option String) : Token :=
  match s.text.toList with
  | ['-', letter] => .option s (attached.bind (attachedToLetter letter))
  | _ => .option s attached

/-- The options that a word may be short for, with what is attached to them. -/
def candidates (word : List Char) : List (Spelling × Option String) :=
  match word with
  | '-' :: '-' :: _ =>
    let (name, attached) := splitValue word
    (spellings.filter fun s => name.isPrefixOf s.text.toList).map fun s => (s, attached)
  | _ =>
    (spellings.filter fun s => s.text.toList == word.take 2).map fun s =>
      (s, some (String.ofList (word.drop 2)))

/-- Whether a character is a decimal digit of any script. -/
def isDigit (c : Char) : Bool := (decimalValue? c).isSome

/-- Whether a text consists of digits, or of a point with digits behind it and perhaps
some in front. -/
def isDecimalFraction (cs : List Char) : Bool :=
  match cs.dropWhile isDigit with
  | [] => !cs.isEmpty
  | c :: fraction => c == '.' && !fraction.isEmpty && fraction.all isDigit

/-- Whether a word is a negative number. A line break behind it does not count. -/
def isNegativeNumber (word : List Char) : Bool :=
  let line := if word.getLast? = some '\n' then word.dropLast else word
  match line with
  | '-' :: cs => isDecimalFraction cs
  | _ => false

/-- A word with a dash in front that is no option in full. -/
def classifyDashed (word : String) : Except UsageError Token :=
  match candidates word.toList with
  | [] =>
    if isNegativeNumber word.toList || word.toList.contains ' ' then .ok (.value word)
    else .ok (.unknown word)
  | [(s, attached)] => .ok (attach s attached)
  | several => .error (.ambiguous word (several.map fun p => p.1.text))

/-- What a word is taken for. -/
def classify (word : String) : Except UsageError Token :=
  match word.toList with
  | [] => .ok (.value word)
  | ['-'] => .ok (.value word)
  | '-' :: _ =>
    match spelled? word.toList, splitValue word.toList with
    | some s, _ => .ok (attach s none)
    | none, (name, some value) =>
      match spelled? name with
      | some s => .ok (attach s (some value))
      | none => classifyDashed word
    | none, (_, none) => classifyDashed word
  | _ => .ok (.value word)

/-- What the words of a command line are taken for. -/
def tokens : List String → Except UsageError (List Token)
  | [] => .ok []
  | word :: words =>
    if word = separatorText then .ok (.separator :: words.map .value)
    else do return (← classify word) :: (← tokens words)

/-- A command line has as many tokens as words. -/
theorem length_tokens {words : List String} {ts : List Token} (h : tokens words = .ok ts) :
    ts.length = words.length := by
  induction words generalizing ts with
  | nil =>
    cases h
    rfl
  | cons word words ih =>
    unfold tokens at h
    split at h
    · cases h
      simp
    · cases hc : classify word with
      | error e => simp [hc, bind, Except.bind] at h
      | ok t =>
        cases ht : tokens words with
        | error e => simp [hc, ht, bind, Except.bind] at h
        | ok rest =>
          simp only [hc, ht, bind, Except.bind, pure, Except.pure, Except.ok.injEq] at h
          subst h
          simp [ih ht]

end ChipEight.CommandLine
