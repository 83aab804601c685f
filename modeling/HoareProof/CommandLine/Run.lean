import HoareProof.CommandLine.Command
import HoareProof.Report

namespace HoareProof
namespace CommandLine

/-!
Running commands.  A command reads files, may ask a solver, and prints; applying
a rule also writes a file.  What goes wrong with the input of a command is
reported as an issue and makes the command fail.  A fault is what no command
can report: then nothing of its output counts.
-/

/-- What no command can report. -/
inductive Fault where
  | settings (error : SettingsError)
  | file (name : String) (error : DiskError)
  | numeral (error : NumeralError)
  | undisplayable
  | tooLarge (error : ConstantTooLarge)
  | unwritable (error : ProofFile.Unwritable)
  | blankSettings
  | blankPath
  | levelFormat
  | levelStyles

/-- What a command leaves behind. -/
structure Result where
  exitCode : Nat
  output : String
  complaint : String
  disk : Disk

/-- Why a command ends early. -/
inductive Trouble where
  | issue (issue : Issue)
  | fault (fault : Fault)

/-- The surroundings of a command: its files, a solver if there is one, and
whether the output is coloured. -/
structure Surroundings where
  disk : Disk
  solver? : Option Solver
  coloured : Bool

namespace Surroundings

def printed (surroundings : Surroundings) (exitCode : Nat) (lines : List String) : Result :=
  ⟨exitCode, String.join (lines.map (· ++ "\n")), "", surroundings.disk⟩

def complained (surroundings : Surroundings) (message : String) : Result :=
  ⟨1, "", Report.paint surroundings.coloured .red message ++ "\n", surroundings.disk⟩

def reported (surroundings : Surroundings) (format : OutputFormat) (issue : Issue) : Result :=
  match format with
  | .pretty => surroundings.complained issue.text
  | .json => surroundings.printed 1 [(Issue.allJson [issue]).write Json.recordStyle]

end Surroundings

/-- The result of a command that may end early. -/
def settle (surroundings : Surroundings) (format : OutputFormat) :
    Except Trouble Result -> Except Fault Result
  | .ok result => .ok result
  | .error (.issue issue) => .ok (surroundings.reported format issue)
  | .error (.fault fault) => .error fault

def readProof (disk : Disk) (file : String) : Except Trouble Derivation :=
  match disk.read file with
  | .error (.refused fault) =>
    .error (.issue (.ofFile ("cannot read file: " ++ fault.about file) file))
  | .error e => .error (.fault (.file file e))
  | .ok text =>
    match ProofFile.load text file with
    | .ok root => .ok root
    | .error (.issue issue) => .error (.issue issue)
    | .error (.numeral e) => .error (.fault (.numeral e))
    | .error .undisplayable => .error (.fault .undisplayable)

def readPath : Given -> Except Trouble Path
  | .blank => .error (.fault .blankPath)
  | .text text =>
    match Path.ofText? text with
    | some path => .ok path
    | none => .error (.issue (.malformedPath text))

def unreadable (what : String) (given : Given) : Trouble :=
  .issue (.plain .syntaxError ("Cannot parse " ++ what ++ " '" ++ given.display ++ "'"))

/-- Reads an assertion that may have been left out. -/
def readAssertion (what : String) : Option Given -> Except Trouble Expr
  | none => .ok .hole
  | some .blank => .error (unreadable what .blank)
  | some (.text text) =>
    match Expr.ofText? .infixed text with
    | .ok (some e) => .ok e
    | .ok none => .error (unreadable what (.text text))
    | .error e => .error (.fault (.numeral e))

/-- Asks about every node among some paths that raises a question, and records
the answers. -/
def proveAll (solver? : Option Solver) (budget : Int) (session : Session) :
    List Path -> Except Fault (List (Path × Outcome) × Session)
  | [] => .ok ([], session)
  | path :: rest =>
    match session.ask path with
    | .error (.tooLarge e) => .error (.tooLarge e)
    | .error _ => proveAll solver? budget session rest
    | .ok (question, lines) =>
      let outcome := Query.run solver? budget lines
      let next := (session.record? question outcome.status).getD session
      (proveAll solver? budget next rest).map fun (outcomes, last) =>
        ((path, outcome) :: outcomes, last)

/-- The milliseconds a query may take: as asked for, unless that is nothing or
zero. -/
def budgetOf (settings : Settings) (request : CheckRequest) : Int :=
  match request.budget with
  | some budget => if budget = 0 then settings.queryBudget else budget
  | none => settings.queryBudget

/-- The strictness of a check.  Options can only change what the settings say
in one direction. -/
def strictnessOf (settings : Settings) (request : CheckRequest) : Derivation.Strictness :=
  ⟨if request.lenient then .normalized else settings.boundary,
    request.loopExit || settings.loopExit⟩

/-- Reports on a derivation after its questions have had their outcomes.  The exit
code says whether a step fails. -/
def reportCheck (surroundings : Surroundings) (strictness : Derivation.Strictness)
    (file : String) (format : OutputFormat) (outcomes : List (Path × Outcome))
    (root : Derivation) : Except Fault Result := do
  let failures := root.failures strictness
  let exitCode := if failures.isEmpty then 0 else 1
  match format with
  | .json =>
    let named := outcomes.map fun (path, outcome) => (path.text, outcome)
    return surroundings.printed exitCode
      [(Report.document strictness failures named root).write Json.reportStyle]
  | .pretty =>
    let lines := outcomes.map fun (path, outcome) =>
      Report.outcomeLine surroundings.coloured path outcome
    match Report.pretty surroundings.coloured strictness (some file) failures root with
    | .ok report => return surroundings.printed exitCode (lines ++ [report])
    | .error e => throw (.unwritable e)

def checkRoot (surroundings : Surroundings) (settings : Settings) (request : CheckRequest)
    (format : OutputFormat) (root : Derivation) : Except Fault Result := do
  let (outcomes, session) ←
    if request.prove then
      proveAll surroundings.solver? (budgetOf settings request) (.start (some root))
        (root.walk.map (·.1))
    else .ok ([], Session.start (some root))
  reportCheck surroundings (strictnessOf settings request) request.file format outcomes
    (session.root.getD root)

def check (surroundings : Surroundings) (settings : Settings) (request : CheckRequest) :
    Except Fault Result :=
  let format := request.format.getD settings.outputFormat
  settle surroundings format do
    let root ← readProof surroundings.disk request.file
    (checkRoot surroundings settings request format root).mapError .fault

/-- Prints the script about the node at a path. -/
def obligations (surroundings : Surroundings) (file : String) (path : Given) :
    Except Fault Result :=
  settle surroundings .pretty do
    let root ← readProof surroundings.disk file
    let path ← readPath path
    match root.at? path with
    | none => return surroundings.complained ("No node at " ++ path.text)
    | some target =>
      match target.obligations with
      | [] => return surroundings.complained ("Node " ++ path.text ++ " is not a consequence step")
      | obligations =>
        match Obligation.script obligations with
        | .ok lines => return surroundings.printed 0 lines
        | .error e => throw (.fault (.tooLarge e))

def parseStatement (surroundings : Surroundings) (text : String) : Except Fault Result :=
  match Stmt.ofText? text with
  | .error e => .error (.numeral e)
  | .ok none => .ok (surroundings.complained ("Cannot parse statement: " ++ text))
  | .ok (some stmt) => .ok (surroundings.printed 0 [stmt.text])

/-- Shows an assertion as it is read, for people and for solvers. -/
def parseAssertion (surroundings : Surroundings) (form : Expr.Form) (text : String) :
    Except Fault Result :=
  match Expr.ofText? form text with
  | .error e => .error (.numeral e)
  | .ok none => .ok (surroundings.complained ("Cannot parse assertion: " ++ text))
  | .ok (some e) =>
    match e.solver with
    | .error e => .error (.tooLarge e)
    | .ok solver => .ok (surroundings.printed 0 ["human:  " ++ e.human, "oracle: " ++ solver])

/-- The issue of a rule that does not fit a node. -/
def mismatch (rule : String) (path : Path) : Trouble :=
  .issue ⟨.ruleMismatch, "Rule '" ++ rule ++ "' cannot be applied at " ++ path.text, some path,
    none, []⟩

/-- The file that applying writes: another one if it is named, else the one it
read. -/
def ApplyRequest.target (request : ApplyRequest) : String :=
  match request.output with
  | some name => if name.isEmpty then request.file else name
  | none => request.file

def writeProof (disk : Disk) (file : String) (root : Derivation) : Except Trouble Disk :=
  match ProofFile.write (some "  ") root with
  | .error e => .error (.fault (.unwritable e))
  | .ok text =>
    match disk.write file (text ++ "\n") with
    | .error (.refused fault) =>
      .error (.issue (.ofFile ("cannot write file: " ++ fault.about file) file))
    | .error e => .error (.fault (.file file e))
    | .ok changed => .ok changed

/-- Applies a rule to a node of a proof file and writes the file.  A rule that
was left blank fits nowhere. -/
def apply (surroundings : Surroundings) (request : ApplyRequest) : Except Fault Result :=
  settle surroundings .pretty do
    let root ← readProof surroundings.disk request.file
    let path ← readPath request.path
    let intermediate ← readAssertion "intermediate assertion" request.intermediate
    let newPre ← readAssertion "precondition" request.newPre
    let newPost ← readAssertion "postcondition" request.newPost
    match request.rule with
    | none => throw (mismatch Given.blank.display path)
    | some rule =>
      match root.refine? path rule ⟨intermediate, newPre, newPost⟩ with
      | none => throw (mismatch rule.tag path)
      | some changed =>
        let disk ← writeProof surroundings.disk request.target changed
        let result := surroundings.printed 0
          ["Applied " ++ rule.tag ++ " at " ++ path.text ++ " -> " ++ request.target]
        return { result with disk := disk }

/-- The settings for a command: those of the file that was asked for, or of the
file nearest to the working directory. -/
def settingsFor (disk : Disk) (file : Option Given) : Except Fault Settings :=
  match file with
  | some (.text name) => (Settings.load disk name).mapError .settings
  | some .blank => .error .blankSettings
  | none => (Settings.loadNearest disk ".").mapError .settings

/-- The level of messages, in upper case: the one that was asked for, or else
that of the settings. -/
def levelFor (settings : Settings) (asked : Option Given) : String :=
  let level := match asked.bind Given.text? with
    | some text => if text.isEmpty then settings.logLevel else text
    | none => settings.logLevel
  Text.toUppercase level

/-- The fault of a level.  Levels share their names with the format of messages
and with the styles of formats, and neither is a level.  An unknown name stands
for the usual level. -/
def levelFault? (level : String) : Option Fault :=
  if level = "BASIC_FORMAT" then some .levelFormat
  else if level = "_STYLES" then some .levelStyles
  else none

def run (surroundings : Surroundings) (invocation : Invocation) : Except Fault Result := do
  let settings ← settingsFor surroundings.disk invocation.settingsFile
  if let some fault := levelFault? (levelFor settings invocation.logLevel) then throw fault
  match invocation.command with
  | .check request => check surroundings settings request
  | .obligations file path => obligations surroundings file path
  | .parse text true _ => parseStatement surroundings text
  | .parse text false prefixed =>
    parseAssertion surroundings (if prefixed then .prefixed else .infixed) text
  | .apply request => apply surroundings request

def messageFormat : String := "%(levelname)s:%(name)s:%(message)s"

def Fault.message : Fault -> String
  | .settings error => error.message
  | .file name error => error.message name
  | .numeral error => error.message
  | .undisplayable => Data.undisplayableMessage
  | .tooLarge error => error.message
  | .unwritable .missingNode => "a node is missing"
  | .unwritable .unrecognisedStep => "a step has no rule"
  | .blankSettings => "expected str, bytes or os.PathLike object, not list"
  | .blankPath => "'list' object has no attribute 'strip'"
  | .levelFormat => "Unknown level: '" ++ messageFormat ++ "'"
  | .levelStyles =>
    "Level not an integer or a valid string: \x7b'%': (<class 'logging.PercentStyle'>, '" ++
      messageFormat ++
      "'), '\x7b': (<class 'logging.StrFormatStyle'>, " ++
      "'\x7blevelname\x7d:\x7bname\x7d:\x7bmessage\x7d'), " ++
      "'$': (<class 'logging.StringTemplateStyle'>, " ++
      "'$\x7blevelname\x7d:$\x7bname\x7d:$\x7bmessage\x7d')\x7d"

def Invocation.fileNames (invocation : Invocation) : List String :=
  let named := match invocation.command with
    | .check request => [request.file]
    | .obligations file _ => [file]
    | .parse _ _ _ => []
    | .apply request => request.file :: request.output.toList
  (invocation.settingsFile.bind Given.text?).toList ++ named

/-- The places that a command may look at: those of the files it mentions, the
directories on the way to them, and those of settings files. -/
def Invocation.places (disk : Disk) (invocation : Invocation) : List Place :=
  let mentioned := invocation.fileNames.flatMap fun name =>
    Disk.ancestors (disk.lexicalPlace name)
  let settings := (Disk.ancestors disk.working).flatMap fun directory =>
    Settings.fileNames.map fun name => directory ++ [name]
  mentioned ++ settings

def usageText : String :=
  "usage: hoaretree [-h] [--version] [--log-level LOG_LEVEL] [--config CONFIG_PATH]\n" ++
    "                 \x7bcheck,obligations,parse,apply\x7d ...\n"

def versionText : String := "hoaretree 0.1.0\n"

def Stop.exitCode : Stop -> Nat
  | .help => 0
  | .version => 0
  | .noCommand => 1
  | .rejected => 2

end CommandLine
end HoareProof
