set_option autoImplicit false

/-! # Arguments

Arguments are options and plain words. An option is written by its long name after two dashes or by
its letter after one; its value is the next argument, follows an equals sign, or follows the letter at
once. After two dashes alone all arguments are plain words. -/

namespace SettingsForge.CommandLine

/-- An option that a command takes. -/
structure OptionSpec where
  name : String
  letter : Option Char := none
  takesValue : Bool := true

/-- An argument by its form. -/
inductive Argument where
  | word (text : String)
  | long (name : String) (attached : Option String)
  | short (letter : Char) (attached : Option String)
  /-- Two dashes alone. -/
  | escape

namespace Argument

/-- A name and what follows the first equals sign. -/
def splitEquals : List Char → List Char × Option (List Char)
  | [] => ([], none)
  | '=' :: value => ([], some value)
  | c :: rest => ((splitEquals rest).map (c :: ·) id)

/-- What follows an option's letter, without an equals sign. -/
def attachedTo : List Char → Option String
  | [] => none
  | '=' :: value => some (String.ofList value)
  | value => some (String.ofList value)

/-- The form of an argument. A dash alone is a word. -/
def of (text : String) : Argument :=
  match text.toList with
  | ['-', '-'] => .escape
  | '-' :: '-' :: rest =>
    let (name, value) := splitEquals rest
    .long (String.ofList name) (value.map String.ofList)
  | '-' :: letter :: rest => .short letter (attachedTo rest)
  | _ => .word text

def isWord (argument : Argument) : Bool :=
  match argument with
  | .word _ => true
  | _ => false

end Argument

/-- Options with their values, empty for those that take none, and the words, all in order. -/
structure Given where
  options : List (String × String) := []
  words : List String := []

namespace Given

def withOption (name value : String) (given : Given) : Given :=
  { given with options := (name, value) :: given.options }

def withWord (word : String) (given : Given) : Given :=
  { given with words := word :: given.words }

/-- All values of an option. -/
def values (given : Given) (name : String) : List String :=
  (given.options.filter fun o => o.1 == name).map Prod.snd

/-- The value of an option that may be given once; none when it is given more often. -/
def single? (given : Given) (name : String) : Option (Option String) :=
  match given.values name with
  | [] => some none
  | [value] => some (some value)
  | _ => none

/-- Read arguments; none when they break the rules. With `leading` the options end at the first word,
    and the arguments from it on are left as they are. -/
def read (leading : Bool) (specs : List OptionSpec) : List String → Option Given
  | [] => some {}
  | text :: rest =>
    let take (spec : Option OptionSpec) (attached : Option String) : Option Given :=
      match spec, attached with
      | none, _ => none
      | some spec, some value =>
        if spec.takesValue then (read leading specs rest).map (withOption spec.name value) else none
      | some spec, none =>
        if spec.takesValue then
          match rest with
          | [] => none
          | value :: after =>
            if (Argument.of value).isWord then
              (read leading specs after).map (withOption spec.name value)
            else none
        else (read leading specs rest).map (withOption spec.name "")
    match Argument.of text with
    | .word word =>
      if leading then some { words := text :: rest }
      else (read leading specs rest).map (withWord word)
    | .escape => if leading then none else some { words := rest }
    | .long name attached => take (specs.find? fun spec => spec.name == name) attached
    | .short letter attached => take (specs.find? fun spec => spec.letter == some letter) attached

end Given

end SettingsForge.CommandLine
