import SealedStore.Envelope.Material
import SealedStore.Text.Blank

/-!
# Command line arguments

`put FILE KEY` and `get KEY FILE` are the commands; `put` also takes `--matdesc NAME=VALUE`, as
often as wanted, for the description. Help may be asked for in the place of any argument, and the
version in the place of a command.

Arguments are read from left to right. The value of an option or a place is looked at when the
next argument is accepted, or at the end; so of a bad value and a word that cannot be accepted at
all, the word is reported if it follows at once.
-/

namespace SealedStore

/-- What can be run. -/
inductive Command where
  /-- Put the contents of a file under a key. -/
  | put (file key : String) (description : Description)
  /-- Write the object under a key to a file. -/
  | get (key file : String)
  deriving DecidableEq

/-- Why arguments were refused. -/
inductive ArgumentError where
  /-- They spell no command. -/
  | noCommand
  /-- A text for the description is not of the form `NAME=VALUE`. -/
  | description (text : String)
  deriving DecidableEq, Repr

/-- The wording of the error. -/
def ArgumentError.message : ArgumentError → String
  | noCommand => "the arguments spell no command"
  | description text => s!"expected KEY=VALUE, got {Quoted.quote text}"

/-- What arguments ask for. -/
inductive Request where
  | help
  | version
  | run (command : Command)
  deriving DecidableEq

namespace Arguments

/-- The commands that take further arguments. -/
inductive Verb where
  | put
  | get
  deriving DecidableEq, Repr

/-- The word for a command. -/
def Verb.name : Verb → String
  | put => "put"
  | get => "get"

/-- The command of a word. -/
def Verb.ofName? (name : String) : Option Verb :=
  [Verb.put, Verb.get].find? (·.name = name)

/-- The word that asks for help, by itself or as an option. -/
def helpName : String := "help"

/-- The option for the description. -/
def descriptionOption : String := "matdesc"

/-! ## Values -/

/-- What an argument is for that stands in a place of its own. -/
inductive Place where
  | file
  | key
  deriving DecidableEq, Repr

/-- The places of a command. -/
def Verb.places : Verb → List Place
  | put => [.file, .key]
  | get => [.key, .file]

/-- Whether the command takes texts for the description. -/
def Verb.takesDescription : Verb → Bool
  | put => true
  | get => false

/-- The text before the first `=` and the text after it. -/
def splitEquals? : List Char → Option (List Char × List Char)
  | [] => none
  | char :: rest =>
      if char = '=' then some ([], rest)
      else (splitEquals? rest).map fun (before, after) ↦ (char :: before, after)

/-- A text for the description: its name, without blanks at the ends, and its value. -/
def readEntry (text : String) : Except ArgumentError (String × String) :=
  match splitEquals? text.toList with
  | none => .error (.description text)
  | some (before, after) =>
      match Blank.trimList before with
      | [] => .error (.description text)
      | name => .ok (String.ofList name, String.ofList after)

/-- The value that has been accepted last and not been looked at yet. -/
inductive Pending where
  | nothing
  /-- The value in a place. -/
  | place (place : Place) (text : String)
  /-- The value of the option for the description, once it has come. -/
  | entry (text? : Option String)
  deriving DecidableEq

/-- What has been accepted so far. -/
structure Accepted where
  /-- The values in their places. -/
  texts : List String := []
  /-- The texts of the description. -/
  entries : List (String × String) := []
  pending : Pending := .nothing
  /-- Whether all that follows stands in places. -/
  placesOnly : Bool := false
  deriving DecidableEq

/-- Looks at the pending value. A file needs a name, and an option its value. -/
def Accepted.settle (accepted : Accepted) : Except ArgumentError Accepted :=
  match accepted.pending with
  | .nothing => .ok accepted
  | .place .file text =>
      if text.isEmpty then .error .noCommand else .ok { accepted with pending := .nothing }
  | .place .key _ => .ok { accepted with pending := .nothing }
  | .entry none => .error .noCommand
  | .entry (some text) => do
      let entry ← readEntry text
      return { accepted with entries := accepted.entries ++ [entry], pending := .nothing }

/-! ## Words -/

/-- How an argument is written. -/
inductive Word where
  /-- `--`, after which all stands in places. -/
  | separator
  /-- `--name` or `--name=value`. -/
  | long (name : String) (value? : Option String)
  /-- `-` and at least one letter. -/
  | short (letter : Char)
  /-- Anything else. -/
  | plain
  deriving DecidableEq

/-- The writing of an argument. Of letters behind one dash the first decides. -/
def Word.ofChars : List Char → Word
  | ['-', '-'] => .separator
  | '-' :: '-' :: rest =>
      match splitEquals? rest with
      | none => .long (String.ofList rest) none
      | some (name, value) => .long (String.ofList name) (some (String.ofList value))
  | '-' :: letter :: _ => .short letter
  | _ => .plain

/-- Why reading stopped before the last argument. -/
inductive Stop where
  | help
  | refused (error : ArgumentError)
  deriving DecidableEq

/-- What has been accepted after one more argument. -/
def accept (verb : Verb) (accepted : Accepted) (argument : String) : Except Stop Accepted :=
  let settled : Except Stop Accepted := accepted.settle.mapError .refused
  let word := if accepted.placesOnly then Word.plain else Word.ofChars argument.toList
  match word with
  | .separator => .ok { accepted with placesOnly := true }
  | .long name value? =>
      if name = helpName ∧ value? = none then settled >>= fun _ ↦ .error .help
      else if name = descriptionOption ∧ verb.takesDescription then do
        let accepted ← settled
        match value? with
        | none => return { accepted with pending := .entry none }
        | some value =>
            let given : Accepted := { accepted with pending := .entry (some value) }
            given.settle.mapError .refused
      else .error (.refused .noCommand)
  | .short letter =>
      if letter = 'h' then settled >>= fun _ ↦ .error .help else .error (.refused .noCommand)
  | .plain =>
      if accepted.pending = .entry none ∧ ¬ accepted.placesOnly then
        .ok { accepted with pending := .entry (some argument) }
      else
        match verb.places[accepted.texts.length]? with
        | none => .error (.refused .noCommand)
        | some place => do
            let accepted ← settled
            return { accepted with
              texts := accepted.texts ++ [argument], pending := .place place argument }

/-- What has been accepted after several arguments. -/
def acceptAll (verb : Verb) (accepted : Accepted) : List String → Except Stop Accepted
  | [] => accepted.settle.mapError .refused
  | argument :: rest => do acceptAll verb (← accept verb accepted argument) rest

/-- The command of a verb and its arguments. -/
def command (verb : Verb) (arguments : List String) : Except Stop Command := do
  let accepted ← acceptAll verb {} arguments
  match verb, accepted.texts with
  | .put, [file, key] => return .put file key (.ofList accepted.entries)
  | .get, [key, file] => return .get key file
  | _, _ => .error (.refused .noCommand)

/-- Whether the words after `help` name a command. -/
def isTopic : List String → Bool
  | [] => true
  | [name] => name = helpName || (Verb.ofName? name).isSome
  | _ => false

/-- What an option in the place of a command asks for. -/
def topOption : Word → Except ArgumentError Request
  | .long "help" none => .ok .help
  | .long "version" none => .ok .version
  | .short 'h' => .ok .help
  | .short 'V' => .ok .version
  | _ => .error .noCommand

end Arguments

open Arguments

/-- What arguments ask for. -/
def Request.ofArguments : List String → Except ArgumentError Request
  | [] => .error .noCommand
  | first :: rest =>
      match Verb.ofName? first with
      | some verb =>
          match command verb rest with
          | .ok command => .ok (.run command)
          | .error .help => .ok .help
          | .error (.refused error) => .error error
      | none =>
          if first = helpName then
            if isTopic rest then .ok .help else .error .noCommand
          else topOption (Word.ofChars first.toList)

end SealedStore
