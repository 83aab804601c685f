import HoareProof.Number.Numeral

namespace HoareProof
namespace CommandLine

/-!
Arguments: options and operands.  An option is named in full, by a beginning of
its long name that no other option shares, or by its short name; its value is
the next argument or is attached to the name.  Every argument is classified
before any is acted on, so an ambiguous name is refused whatever stands before
it.  After that the arguments take effect in order: a request for help or for
the version ends the reading at once, a bad value refuses the line at once, and
what nobody recognises refuses it at the end.  Two dashes alone are never the
text of an option, not even where they are attached to its name.
-/

/-- Why reading ends without a command to run. -/
inductive Stop where
  | help
  | version
  | noCommand
  | rejected
deriving DecidableEq, Repr

/-- What an option does. -/
inductive Role where
  | flag
  | value
  | help
  | version
deriving DecidableEq, Repr

/-- An option.  The short name is one letter, the long name is written without
its dashes, and a value is accepted or refused as soon as it is met. -/
structure Opt (Key : Type) where
  key : Key
  letter : Option Char
  name : String
  role : Role
  accepts : String -> Bool

/-- What was given for an option.  Two dashes leave it blank: it counts as
given, but there is no text. -/
inductive Given where
  | text (value : String)
  | blank
deriving DecidableEq, Repr

namespace Given

def ofText (value : String) : Given :=
  if value = "--" then .blank else .text value

def text? : Given -> Option String
  | .text value => some value
  | .blank => none

def display : Given -> String
  | .text value => value
  | .blank => "[]"

end Given

/-- An option as it is used, with what is written for it if it takes a
value. -/
structure Use (Key : Type) where
  option : Opt Key
  value : String

/-- An argument by its kind.  A short option has what is written after its
letter, a long one what is written after an equals sign. -/
inductive Word (Key : Type) where
  | operand (text : String)
  | terminator
  | short (option : Opt Key) (attached : Option (List Char))
  | long (option : Opt Key) (attached : Option String)
  | unknown

variable {Key : Type}

/-- A negative number: a dash and digits, of which a point may have any number
on its left.  One line feed may follow. -/
def isNegativeNumber : List Char -> Bool
  | '-' :: rest =>
    let number := match rest.getLast? with
      | some '\n' => rest.dropLast
      | _ => rest
    match number.dropWhile Numeral.isDecimal with
    | [] => !number.isEmpty
    | '.' :: fraction => !fraction.isEmpty && fraction.all Numeral.isDecimal
    | _ => false
  | _ => false

def unnamed (chars : List Char) : Word Key :=
  if isNegativeNumber chars || chars.contains ' ' then .operand (String.ofList chars)
  else .unknown

/-- The kind of an argument after two dashes: the option with that very name,
or else the only one whose name starts so. -/
def classifyLong (options : List (Opt Key)) (chars : List Char) : Except Stop (Word Key) :=
  let written := chars.takeWhile (· != '=')
  let attached := match chars.dropWhile (· != '=') with
    | _ :: value => some (String.ofList value)
    | [] => none
  match options.find? fun option => option.name.toList == written with
  | some option => .ok (.long option attached)
  | none =>
    match options.filter fun option => written.isPrefixOf option.name.toList with
    | [] => .ok (unnamed ('-' :: '-' :: chars))
    | [option] => .ok (.long option attached)
    | _ => .error .rejected

/-- What is attached to a letter.  An equals sign in front of it is dropped. -/
def attachedTo : List Char -> Option (List Char)
  | [] => none
  | '=' :: value => some value
  | tail => some tail

def classifyShort (options : List (Opt Key)) (letter : Char) (tail : List Char) : Word Key :=
  match options.find? fun option => option.letter == some letter with
  | some option => .short option (attachedTo tail)
  | none => unnamed ('-' :: letter :: tail)

def classify (options : List (Opt Key)) (text : String) : Except Stop (Word Key) :=
  match text.toList with
  | '-' :: '-' :: chars => classifyLong options chars
  | '-' :: letter :: tail => .ok (classifyShort options letter tail)
  | _ => .ok (.operand text)

/-- The kinds of all arguments.  Two dashes alone make operands of all that
follow. -/
def classifyAll (options : List (Opt Key)) : List String -> Except Stop (List (Word Key))
  | [] => .ok []
  | text :: rest =>
    if text = "--" then .ok (.terminator :: rest.map .operand)
    else do
      let word ← classify options text
      let words ← classifyAll options rest
      return word :: words

/-- What an argument with options amounts to: uses with their values, and an
option that still waits for one. -/
structure Bundle (Key : Type) where
  uses : List (Use Key)
  waiting : Option (Opt Key)

/-- The options written together behind one dash, the first of which is known.
What follows an option with a value is its value; what follows any other one
must be the letter of the next. -/
def bundle (options : List (Opt Key)) (option : Opt Key) : List Char -> Except Stop (Bundle Key)
  | [] =>
    if option.role = .value then .ok ⟨[], some option⟩
    else .ok ⟨[⟨option, ""⟩], none⟩
  | c :: rest =>
    if option.role = .value then .ok ⟨[⟨option, String.ofList (c :: rest)⟩], none⟩
    else
      match options.find? fun next => next.letter == some c with
      | none => .error .rejected
      | some next => do
        let more ← bundle options next rest
        return { more with uses := ⟨option, ""⟩ :: more.uses }

/-- What an option with an attached value amounts to.  Only an option with a
value may have one, be it empty. -/
def attachValue (option : Opt Key) (value : String) : Except Stop (Bundle Key) :=
  if option.role = .value then .ok ⟨[⟨option, value⟩], none⟩ else .error .rejected

def short (options : List (Opt Key)) (option : Opt Key) :
    Option (List Char) -> Except Stop (Bundle Key)
  | none => bundle options option []
  | some [] => attachValue option ""
  | some (c :: rest) => bundle options option (c :: rest)

def long (option : Opt Key) : Option String -> Except Stop (Bundle Key)
  | none => bundle [] option []
  | some value => attachValue option value

/-- What has been read so far: the operand, the options with the latest one
first, options of the last argument of which one waits for its value, whether
the last argument was the operand, and whether anything was not recognised. -/
structure Progress (Key : Type) where
  operand : Option String
  given : List (Key × Given)
  waiting : Option (List (Use Key) × Opt Key)
  afterOperand : Bool
  unrecognised : Bool

namespace Progress

def start : Progress Key :=
  ⟨none, [], none, false, false⟩

/-- Lets an option take effect.  A blank one is accepted whatever its values
are. -/
def take (progress : Progress Key) (use : Use Key) : Except Stop (Progress Key) :=
  match use.option.role with
  | .help => .error .help
  | .version => .error .version
  | .flag => .ok { progress with given := (use.option.key, .text "") :: progress.given }
  | .value =>
    let given := Given.ofText use.value
    if given = .blank || use.option.accepts use.value then
      .ok { progress with given := (use.option.key, given) :: progress.given }
    else .error .rejected

def takeAll (progress : Progress Key) : List (Use Key) -> Except Stop (Progress Key)
  | [] => .ok progress
  | use :: rest => do
    let next ← progress.take use
    next.takeAll rest

/-- Reads what options of one argument amount to.  None of them takes effect
before the last one has its value. -/
def takeBundle (progress : Progress Key) (found : Bundle Key) : Except Stop (Progress Key) :=
  let noted := { progress with afterOperand := false }
  match found.waiting with
  | some option => .ok { noted with waiting := some (found.uses, option) }
  | none => noted.takeAll found.uses

/-- Reads an argument.  A terminator may stand right before or right after the
operand; anywhere else nobody recognises it. -/
def step (options : List (Opt Key)) (progress : Progress Key) (word : Word Key) :
    Except Stop (Progress Key) :=
  match progress.waiting, word with
  | some (uses, option), .operand value =>
    takeAll { progress with waiting := none } (uses ++ [⟨option, value⟩])
  | some _, _ => .error .rejected
  | none, .operand text =>
    match progress.operand with
    | none => .ok { progress with operand := some text, afterOperand := true }
    | some _ => .ok { progress with afterOperand := false, unrecognised := true }
  | none, .terminator =>
    let fits := progress.operand.isNone || progress.afterOperand
    .ok { progress with afterOperand := false, unrecognised := progress.unrecognised || !fits }
  | none, .unknown => .ok { progress with afterOperand := false, unrecognised := true }
  | none, .short option attached => do
    let found ← short options option attached
    progress.takeBundle found
  | none, .long option attached => do
    let found ← long option attached
    progress.takeBundle found

def run (options : List (Opt Key)) (progress : Progress Key) :
    List (Word Key) -> Except Stop (Progress Key)
  | [] => .ok progress
  | word :: rest => do
    let next ← progress.step options word
    next.run options rest

/-- Reads arguments up to the first operand, and gives how many follow it.  A
terminator cannot stand before a command. -/
def runToOperand (options : List (Opt Key)) (progress : Progress Key) :
    List (Word Key) -> Except Stop (Progress Key × Option (String × Nat))
  | [] => .ok (progress, none)
  | word :: rest =>
    match progress.waiting, word with
    | none, .operand text => .ok (progress, some (text, rest.length))
    | none, .terminator => .error .rejected
    | _, word => do
      let next ← progress.step options word
      next.runToOperand options rest

/-- Whether everything was recognised and no option waits for its value. -/
def isFinished (progress : Progress Key) : Bool :=
  progress.waiting.isNone && !progress.unrecognised

variable [DecidableEq Key]

def given? (progress : Progress Key) (key : Key) : Option Given :=
  progress.given.lookup key

/-- The text that was last given for an option, unless it was left blank. -/
def text? (progress : Progress Key) (key : Key) : Option String :=
  (progress.given? key).bind Given.text?

def has (progress : Progress Key) (key : Key) : Bool :=
  (progress.given? key).isSome

end Progress
end CommandLine
end HoareProof
