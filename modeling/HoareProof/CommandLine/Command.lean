import HoareProof.CommandLine.Arguments
import HoareProof.Rule
import HoareProof.Settings

namespace HoareProof
namespace CommandLine

/-!
Commands: checking a proof file, printing the side conditions of a node,
showing the written forms of a text, and applying a rule to a node.  Options
for all commands come before the name of the command.
-/

structure CheckRequest where
  file : String
  prove : Bool
  budget : Option Int
  format : Option OutputFormat
  lenient : Bool
  loopExit : Bool

/-- A request to apply a rule to a node of a proof file.  Without a rule, the
option for it was left blank. -/
structure ApplyRequest where
  file : String
  path : Given
  rule : Option Rule
  intermediate : Option Given
  newPre : Option Given
  newPost : Option Given
  output : Option String

inductive Command where
  | check (request : CheckRequest)
  | obligations (file : String) (path : Given)
  | parse (text : String) (statement prefixed : Bool)
  | apply (request : ApplyRequest)

/-- A command with the settings file and the level of messages that were asked
for. -/
structure Invocation where
  settingsFile : Option Given
  logLevel : Option Given
  command : Command

inductive Key where
  | help
  | version
  | logLevel
  | settings
  | prove
  | timeout
  | format
  | lenient
  | loopExit
  | path
  | statement
  | prefixed
  | rule
  | intermediate
  | newPre
  | newPost
  | output
deriving DecidableEq, Repr

def anyValue (_ : String) : Bool := true

/-- An option that is given or not. -/
def flagOption (key : Key) (name : String) : Opt Key :=
  ⟨key, none, name, .flag, anyValue⟩

def valueOption (key : Key) (name : String) (accepts : String -> Bool) : Opt Key :=
  ⟨key, none, name, .value, accepts⟩

def helpOption : Opt Key :=
  ⟨.help, some 'h', "help", .help, anyValue⟩

def globalOptions : List (Opt Key) := [
  helpOption,
  ⟨.version, none, "version", .version, anyValue⟩,
  valueOption .logLevel "log-level" anyValue,
  valueOption .settings "config" anyValue]

def ruleOfTag? (tag : String) : Option Rule :=
  Rule.all.find? fun rule => rule.tag == tag

inductive CommandName where
  | check
  | obligations
  | parse
  | apply
deriving DecidableEq, Repr

namespace CommandName

def ofText? (text : String) : Option CommandName :=
  [("check", CommandName.check), ("obligations", .obligations), ("parse", .parse),
    ("apply", .apply)].lookup text

def options : CommandName -> List (Opt Key)
  | .check => [
    helpOption,
    flagOption .prove "prove",
    valueOption .timeout "timeout" fun text => (Numeral.integer? text).isSome,
    valueOption .format "format" fun text => (OutputFormat.ofName? text).isSome,
    flagOption .lenient "lenient",
    flagOption .loopExit "check-loop-exit"]
  | .obligations => [helpOption, valueOption .path "path" anyValue]
  | .parse => [helpOption, flagOption .statement "statement", flagOption .prefixed "prefix"]
  | .apply => [
    helpOption,
    valueOption .path "path" anyValue,
    valueOption .rule "rule" fun text => (ruleOfTag? text).isSome,
    valueOption .intermediate "intermediate" anyValue,
    valueOption .newPre "pre" anyValue,
    valueOption .newPost "post" anyValue,
    ⟨.output, some 'o', "output", .value, anyValue⟩]

end CommandName

/-- The path option; without it the path is that of the root. -/
def pathOf (progress : Progress Key) : Given :=
  (progress.given? .path).getD (.text ".")

/-- The command that arguments describe.  Applying needs the option for a
rule. -/
def commandOf? (name : CommandName) (operand : String) (progress : Progress Key) : Option Command :=
  match name with
  | .check => some (.check {
      file := operand
      prove := progress.has .prove
      budget := (progress.text? .timeout).bind Numeral.integer?
      format := (progress.text? .format).bind OutputFormat.ofName?
      lenient := progress.has .lenient
      loopExit := progress.has .loopExit })
  | .obligations => some (.obligations operand (pathOf progress))
  | .parse => some (.parse operand (progress.has .statement) (progress.has .prefixed))
  | .apply =>
    (progress.given? .rule).map fun rule => .apply {
      file := operand
      path := pathOf progress
      rule := rule.text?.bind ruleOfTag?
      intermediate := progress.given? .intermediate
      newPre := progress.given? .newPre
      newPost := progress.given? .newPost
      output := progress.text? .output }

def readCommand (name : CommandName) (arguments : List String) : Except Stop Command := do
  let words ← classifyAll name.options arguments
  let progress ← Progress.start.run name.options words
  match progress.isFinished, progress.operand.bind fun operand => commandOf? name operand progress with
  | true, some command => return command
  | _, _ => throw .rejected

/-- Reads the arguments of the program.  A command is read even if something
before it was not recognised, so that it can still be asked for help. -/
def readArguments (arguments : List String) : Except Stop Invocation := do
  let words ← classifyAll globalOptions arguments
  let (progress, found) ← Progress.start.runToOperand globalOptions words
  match found with
  | none => throw (if progress.isFinished then .noCommand else .rejected)
  | some (text, following) =>
    match CommandName.ofText? text with
    | none => throw .rejected
    | some name =>
      let command ← readCommand name (arguments.drop (arguments.length - following))
      if progress.isFinished then
        return ⟨progress.given? .settings, progress.given? .logLevel, command⟩
      else throw .rejected

end CommandLine
end HoareProof
