import LoxLang.Text.Digit

/-!
# Command line options

    lox [-v] [--emit-ast FILE | --ast FILE | --print-ast FILE] [script]

The option `-v` may be repeated, and one-letter options may be written together, with or without an
equals sign behind the first: `-vv` and `-v=v` are both `-v -v`. A long option may be shortened as
long as it stays clear which one is meant, and its value may follow it or be joined to it by an
equals sign; two minuses joined to it are no value. Behind `--` nothing is an option. A word with a
minus in front that is a number, a single minus, or that has a space in it, is no option either.

The words are read from left to right. `-h` takes effect when the whole word it stands in has been
read. A wrong use of an option ends the reading at once; words that nothing can take are found wrong
only at the end.
-/

namespace LoxLang.Command

/-- What an option asks for. -/
inductive Flag where
  | help
  | verbose
  | emitTree
  | runTree
  | printTree
deriving DecidableEq, Repr

namespace Flag

/-- The options by name. -/
def names : List (String × Flag) := [
  ("-h", help), ("--help", help), ("-v", verbose), ("--emit-ast", emitTree), ("--ast", runTree),
  ("--print-ast", printTree)]

/-- The option of a name. -/
def ofName? (name : String) : Option Flag := names.lookup name

/-- The option is followed by a value. -/
def takesValue : Flag → Bool
  | help | verbose => false
  | emitTree | runTree | printTree => true

end Flag

/-- An option with the text that is joined to it. Letters can be written together only behind an
option of one letter. -/
structure OptionUse where
  flag : Flag
  isLetter : Bool
  joined : Option (List Char)
deriving DecidableEq, Repr

/-- What a word of the command line is. -/
inductive Word where
  | positional (text : String)
  | option (use : OptionUse)
  /-- A word that looks like an option and is none. -/
  | unknown
  /-- The word behind which nothing is an option. -/
  | separator
deriving DecidableEq, Repr

/-- A minus with a number in decimal digits of any script; a line feed may end the word. -/
def isNegativeNumber : List Char → Bool
  | '-' :: text =>
    let text := if text.getLast? = some '\n' then text.dropLast else text
    match text.dropWhile Text.isDecimalDigit with
    | [] => !text.isEmpty
    | '.' :: fraction => !fraction.isEmpty && fraction.all Text.isDecimalDigit
    | _ => false
  | _ => false

/-- The text in front of the first equals sign, and the text behind it if there is one. -/
def splitEquals (text : List Char) : List Char × Option (List Char) :=
  match text.dropWhile (· ≠ '=') with
  | [] => (text, none)
  | _ :: behind => (text.takeWhile (· ≠ '='), some behind)

/-- What a word that begins with a minus can be short for: a long option in full or shortened, or a
letter with text joined to it. -/
def abbreviated (text : List Char) : List OptionUse :=
  match text with
  | '-' :: '-' :: _ =>
    let (start, value) := splitEquals text
    (Flag.names.filter fun (name, _) => start.isPrefixOf name.toList).map fun (_, flag) =>
      ⟨flag, false, value⟩
  | '-' :: letter :: rest =>
    match Flag.ofName? (.ofList ['-', letter]) with
    | some flag => [⟨flag, true, some rest⟩]
    | none => []
  | _ => []

/-- What a word in front of the separator is; nothing if it could be short for several options. -/
def classify? (word : String) : Option Word :=
  let text := word.toList
  match text with
  | '-' :: _ :: _ =>
    match Flag.ofName? word with
    | some flag => some (.option ⟨flag, text.length = 2, none⟩)
    | none =>
      let (name, value) := splitEquals text
      match Flag.ofName? (.ofList name), value with
      | some flag, some value => some (.option ⟨flag, name.length = 2, some value⟩)
      | _, _ =>
        match abbreviated text with
        | [use] => some (.option use)
        | _ :: _ :: _ => none
        | [] =>
          if isNegativeNumber text ∨ ' ' ∈ text then some (.positional word) else some .unknown
  | _ => some (.positional word)

/-- What all words are; nothing if one could be short for several options. -/
def classifyAll? : List String → Option (List Word)
  | [] => some []
  | word :: words =>
    if word = "--" then some (.separator :: words.map .positional)
    else do
      let first ← classify? word
      let others ← classifyAll? words
      return first :: others

/-- What has been read of a command line. -/
structure Options where
  verbosity : Nat
  /-- The tree option with its value, the last one if it was repeated. -/
  tree : Option (Flag × String)
  script : Option String
  /-- The script has been read, or it is too late for it. -/
  scriptDone : Bool
  /-- There was a word that nothing can take. -/
  surplus : Bool
deriving DecidableEq, Repr

/-- How the reading of a command line ends. -/
inductive Reading where
  | help
  | wrongUse
  | accepted (options : Options)
deriving DecidableEq, Repr

/-- The options of a word in the order in which they take effect, each with its value. -/
structure Effects where
  flags : List (Flag × Option String)
  /-- The option needs the next word as its value. -/
  needsValue : Option Flag
deriving DecidableEq, Repr

/-- The value that a text joined to an option stands for. -/
def joinedValue (text : List Char) : String := if text = ['-', '-'] then "" else .ofList text

/-- The options that are written together in one word, after those already found. There are none if
a text is joined to an option that takes no value, unless the option is a letter and the text goes
on with letters of options. -/
def effects? (done : List (Flag × Option String)) (flag : Flag) (isLetter : Bool) :
    List Char → Option Effects
  | [] => if flag.takesValue then some ⟨done ++ [(flag, some "")], none⟩ else none
  | letter :: rest =>
    if flag.takesValue then some ⟨done ++ [(flag, some (joinedValue (letter :: rest)))], none⟩
    else if !isLetter then none
    else
      match Flag.ofName? (.ofList ['-', letter]) with
      | none => none
      | some further =>
        let done := done ++ [(flag, none)]
        if !rest.isEmpty then effects? done further true rest
        else if further.takesValue then some ⟨done, some further⟩
        else some ⟨done ++ [(further, none)], none⟩

/-- The options that a word stands for. -/
def OptionUse.effects? (use : OptionUse) : Option Effects :=
  match use.joined with
  | none =>
    if use.flag.takesValue then some ⟨[], some use.flag⟩ else some ⟨[(use.flag, none)], none⟩
  | some text => Command.effects? [] use.flag use.isLetter text

namespace Options

/-- The options before anything is read. -/
def initial : Options := ⟨0, none, none, false, false⟩

/-- The options after one option took effect; at most one of the tree options may be used. -/
def apply (options : Options) (flag : Flag) (value : String) : Except Reading Options :=
  match flag with
  | .help => .error .help
  | .verbose => .ok { options with verbosity := options.verbosity + 1 }
  | _ =>
    match options.tree with
    | some (other, _) =>
      if other = flag then .ok { options with tree := some (flag, value) } else .error .wrongUse
    | none => .ok { options with tree := some (flag, value) }

/-- The options after several took effect one by one. -/
def applyAll (options : Options) : List (Flag × Option String) → Except Reading Options
  | [] => .ok options
  | (flag, value) :: flags => do
    applyAll (← options.apply flag (value.getD "")) flags

/-- A word that stands for itself: the script, or one too many. -/
def take (options : Options) (text : String) : Options :=
  if options.scriptDone then { options with surplus := true }
  else { options with script := some text, scriptDone := true }

/-- The words behind the last option. A separator goes with the script, before or after it. -/
def finish (options : Options) (words : List Word) : Options :=
  if options.scriptDone then { options with surplus := options.surplus || !words.isEmpty }
  else
    match words with
    | .positional text :: .separator :: rest | .separator :: .positional text :: rest
    | .positional text :: rest =>
      { options with
        script := some text, scriptDone := true, surplus := options.surplus || !rest.isEmpty }
    | .separator :: rest | rest =>
      { options with scriptDone := true, surplus := options.surplus || !rest.isEmpty }

end Options

/-- The word takes part in the reading of options. -/
def Word.isOption : Word → Bool
  | .option _ | .unknown => true
  | _ => false

/-- Reads the words from the next one on. -/
def readWords (options : Options) : List Word → Except Reading Options
  | [] => .ok (options.finish [])
  | word :: words =>
    if !(word :: words).any Word.isOption then .ok (options.finish (word :: words))
    else
      match word with
      | .separator => .ok (options.finish (word :: words))
      | .positional text => readWords (options.take text) words
      | .unknown => readWords { options with surplus := true } words
      | .option use =>
        match use.effects? with
        | none => .error .wrongUse
        | some effects =>
          match effects.needsValue, words with
          | none, words =>
            match options.applyAll effects.flags with
            | .error reading => .error reading
            | .ok options => readWords options words
          | some flag, .positional value :: words =>
            match options.applyAll (effects.flags ++ [(flag, some value)]) with
            | .error reading => .error reading
            | .ok options => readWords options words
          | some _, _ => .error .wrongUse

/-- Reads a command line. -/
def readOptions (words : List String) : Reading :=
  match classifyAll? words with
  | none => .wrongUse
  | some words =>
    match readWords .initial words with
    | .error reading => reading
    | .ok options => if options.surplus then .wrongUse else .accepted options

end LoxLang.Command
