import HoareProof.CommandLine.Run
import HoareProof.Proofs.Inquiry
import HoareProof.Proofs.Reloading

namespace HoareProof
namespace CommandLine

open HoareProof.Derivation

/-!
Edits from the command line.  A command reads the file, edits the derivation in it and
writes the file, so between two edits the derivation goes through its text.  Nothing is
lost on the way: after any number of commands the file holds what the same edits make of
the derivation in memory.  A command either makes its edit and succeeds, or fails and
leaves every file as it was.
-/

/-! ## What is typed -/

/-- What is typed to apply a rule: the path of the node, the rule, and the assertions that
the rule may need. -/
structure TypedEdit where
  path : String
  rule : Rule
  intermediate : Option Given
  newPre : Option Given
  newPost : Option Given

/-- The request to make an edit in a file, and to write the result to another one if it is
named. -/
def TypedEdit.request (typed : TypedEdit) (file : String) (output : Option String) :
    ApplyRequest :=
  ⟨file, .text typed.path, some typed.rule, typed.intermediate, typed.newPre, typed.newPost, output⟩

/-- The assertion that was typed.  One that was left out is a hole. -/
def assertion? : Option Given -> Option Expr
  | none => some .hole
  | some .blank => none
  | some (.text text) =>
      match Expr.ofText? .infixed text with
      | .ok read => read
      | .error _ => none

/-- The edit that was typed, if its path and its assertions can be read. -/
def TypedEdit.edit? (typed : TypedEdit) : Option Edit :=
  (Path.ofText? typed.path).bind fun path =>
    (assertion? typed.intermediate).bind fun intermediate =>
      (assertion? typed.newPre).bind fun newPre =>
        (assertion? typed.newPost).map fun newPost =>
          ⟨path, some typed.rule, ⟨intermediate, newPre, newPost⟩⟩

/-- All numbers in the text of an assertion have values, and none of those that it is read
with is infinite. -/
structure Convertible (given : Option Given) : Prop where
  readable : forall text stream token, given = some (.text text) ->
    Token.ofText text = .ok stream -> token ∈ stream.tokens -> Parsing.Readable token
  finite : forall text e value, given = some (.text text) ->
    Expr.ofText? .infixed text = .ok (some e) -> value ∈ e.constants -> value.isFinite = true

/-- All assertions that were typed are convertible. -/
structure TypedEdit.Convertible (typed : TypedEdit) : Prop where
  intermediate : CommandLine.Convertible typed.intermediate
  newPre : CommandLine.Convertible typed.newPre
  newPost : CommandLine.Convertible typed.newPost

theorem Convertible.ofText?_ne_error {text : String} (convertible : Convertible (some (.text text)))
    (error : NumeralError) : Expr.ofText? .infixed text ≠ .error error := by
  intro fails
  rcases Parsing.blamed_of_readAll? Expr.infixParser_blames fails with
    ⟨stream, lexed, token, member, unreadable⟩
  exact unreadable.not_readable (convertible.readable text stream token rfl lexed member)

theorem Convertible.printable {given : Option Given} (convertible : Convertible given) {e : Expr}
    (isAssertion : assertion? given = some e) (complete : e.isComplete = true) : e.Printable := by
  unfold assertion? at isAssertion
  split at isAssertion
  · cases isAssertion
    cases complete
  · cases isAssertion
  next text =>
    split at isAssertion
    next read =>
      subst isAssertion
      apply Expr.printable_of_ofText? read
      exact fun value member => convertible.finite text e value rfl read member
    · cases isAssertion

theorem TypedEdit.Convertible.printable {typed : TypedEdit} (convertible : typed.Convertible)
    {edit : Edit} (isEdit : typed.edit? = some edit) : edit.given.Printable := by
  rcases Option.bind_eq_some_iff.mp isEdit with ⟨path, _, isEdit⟩
  rcases Option.bind_eq_some_iff.mp isEdit with ⟨intermediate, isIntermediate, isEdit⟩
  rcases Option.bind_eq_some_iff.mp isEdit with ⟨newPre, isPre, isEdit⟩
  rcases Option.map_eq_some_iff.mp isEdit with ⟨newPost, isPost, rfl⟩
  exact ⟨convertible.intermediate.printable isIntermediate, convertible.newPre.printable isPre,
    convertible.newPost.printable isPost⟩

/-! ## Reading what was typed -/

/-- An attempt gives a value if there is one, and is reported as an issue otherwise. -/
def Settles {Value : Type} (attempt : Except Trouble Value) (value? : Option Value) : Prop :=
  match value? with
  | some value => attempt = .ok value
  | none => ∃ issue, attempt = .error (.issue issue)

theorem Settles.bind {First Second : Type} {attempt : Except Trouble First} {first? : Option First}
    {next : First -> Except Trouble Second} {next? : First -> Option Second}
    (settles : Settles attempt first?)
    (settlesNext : forall first, first? = some first -> Settles (next first) (next? first)) :
    Settles (attempt >>= next) (first?.bind next?) := by
  cases first? with
  | none =>
      rcases settles with ⟨issue, rfl⟩
      exact ⟨issue, rfl⟩
  | some first =>
      cases settles
      exact settlesNext first rfl

theorem settles_readPath (text : String) : Settles (readPath (.text text)) (Path.ofText? text) := by
  rw [readPath]
  cases Path.ofText? text with
  | none => exact ⟨_, rfl⟩
  | some path => rfl

theorem settles_readAssertion (what : String) {given : Option Given}
    (convertible : Convertible given) : Settles (readAssertion what given) (assertion? given) := by
  match given with
  | none => rfl
  | some .blank => exact ⟨_, rfl⟩
  | some (.text text) =>
      rw [readAssertion, assertion?]
      cases read : Expr.ofText? .infixed text with
      | error error => exact absurd read (convertible.ofText?_ne_error error)
      | ok found =>
          cases found with
          | none => exact ⟨_, rfl⟩
          | some e => rfl

/-- Reads the edit that was typed. -/
def TypedEdit.read (typed : TypedEdit) : Except Trouble Edit := do
  let path ← readPath (.text typed.path)
  let intermediate ← readAssertion "intermediate assertion" typed.intermediate
  let newPre ← readAssertion "precondition" typed.newPre
  let newPost ← readAssertion "postcondition" typed.newPost
  return ⟨path, some typed.rule, ⟨intermediate, newPre, newPost⟩⟩

theorem TypedEdit.Convertible.settles_read {typed : TypedEdit} (convertible : typed.Convertible) :
    Settles typed.read typed.edit? := by
  rw [TypedEdit.read, TypedEdit.edit?]
  refine (settles_readPath typed.path).bind fun path _ => ?_
  refine (settles_readAssertion _ convertible.intermediate).bind fun intermediate _ => ?_
  refine (settles_readAssertion _ convertible.newPre).bind fun newPre _ => ?_
  rw [Option.map_eq_bind]
  refine (settles_readAssertion _ convertible.newPost).bind fun newPost _ => ?_
  rfl

/-- Makes an edit and writes the result. -/
def finish (surroundings : Surroundings) (request : ApplyRequest) (rule : Rule) (root : Derivation)
    (edit : Edit) : Except Trouble Result :=
  match root.edit? edit with
  | none => .error (mismatch rule.tag edit.path)
  | some changed => do
      let disk ← writeProof surroundings.disk request.target changed
      let result := surroundings.printed 0
        ["Applied " ++ rule.tag ++ " at " ++ edit.path.text ++ " -> " ++ request.target]
      return { result with disk := disk }

section

variable {surroundings : Surroundings} {file : String} {root : Derivation} {typed : TypedEdit}
  (output : Option String)

/-- A command on a file that can be read reads what was typed and goes on with it. -/
theorem apply_of_loaded (loaded : readProof surroundings.disk file = .ok root) :
    apply surroundings (typed.request file output) =
      settle surroundings .pretty (typed.read >>= finish surroundings (typed.request file output)
        typed.rule root) := by
  rw [apply, TypedEdit.read]
  simp only [TypedEdit.request, loaded, ok_bind, bind_assoc, pure_bind]
  rfl

/-- A command whose edit cannot be read or is rejected fails and leaves the disk alone. -/
theorem apply_of_rejected (loaded : readProof surroundings.disk file = .ok root)
    (convertible : typed.Convertible) (rejected : typed.edit?.bind root.edit? = none) :
    ∃ result, apply surroundings (typed.request file output) = .ok result ∧
      result.exitCode = 1 ∧ result.disk = surroundings.disk := by
  have reported : ∃ issue, (typed.read >>= finish surroundings (typed.request file output)
      typed.rule root) = .error (.issue issue) := by
    have settles := convertible.settles_read
    cases isEdit : typed.edit? with
    | none =>
        rw [isEdit] at settles
        rcases settles with ⟨issue, isRead⟩
        exact ⟨issue, by rw [isRead, error_bind]⟩
    | some edit =>
        rw [isEdit] at settles rejected
        have isRead : typed.read = .ok edit := settles
        have refused : root.edit? edit = none := rejected
        rw [isRead, ok_bind, finish, refused]
        exact ⟨_, rfl⟩
  rcases reported with ⟨issue, isIssue⟩
  rw [apply_of_loaded output loaded, isIssue]
  exact ⟨_, rfl, rfl, rfl⟩

/-- A command whose edit is accepted succeeds if the result can be written. -/
theorem apply_of_accepted (loaded : readProof surroundings.disk file = .ok root)
    (convertible : typed.Convertible) {changed : Derivation}
    (accepted : typed.edit?.bind root.edit? = some changed) {disk : Disk}
    (written : writeProof surroundings.disk (typed.request file output).target changed = .ok disk) :
    ∃ result, apply surroundings (typed.request file output) = .ok result ∧
      result.exitCode = 0 ∧ result.disk = disk := by
  rcases Option.bind_eq_some_iff.mp accepted with ⟨edit, isEdit, isChanged⟩
  have settles := convertible.settles_read
  rw [isEdit] at settles
  have isRead : typed.read = .ok edit := settles
  rw [apply_of_loaded output loaded, isRead, ok_bind, finish, isChanged]
  simp only [written, ok_bind]
  exact ⟨_, rfl, rfl, rfl⟩

end

/-! ## Proof files on a disk -/

section

variable {disk : Disk} {file name : String} {place : Place} {root : Derivation}

theorem readProof_eq_ok_iff :
    readProof disk file = .ok root ↔
      ∃ text, disk.read file = .ok text ∧ ProofFile.load text file = .ok root := by
  unfold readProof
  cases disk.read file with
  | error error => cases error <;> simp
  | ok text =>
      cases loaded : ProofFile.load text file with
      | error error => cases error <;> simp [loaded]
      | ok found => simp [loaded]

theorem load_empty_ne_ok (file : String) : ProofFile.load "" file ≠ .ok root := by
  intro loaded
  cases loaded

/-- A proof file that can be read is at the place of a file, and is no sink. -/
theorem exists_namesFile_of_readProof (loaded : readProof disk file = .ok root) :
    ∃ place, disk.NamesFile file place ∧ disk.entry? place ≠ some .sink := by
  rcases readProof_eq_ok_iff.mp loaded with ⟨text, isText, loads⟩
  rcases Disk.exists_namesFile_of_read isText with ⟨place, names⟩
  refine ⟨place, names, ?_⟩
  intro isSink
  rw [names.read_eq, isSink] at isText
  cases isText
  exact load_empty_ne_ok file loads

/-- What can be stored can be written wherever a file can be, and the text that is written
is loaded as what was stored. -/
theorem exists_writeProof (names : disk.NamesFile name place) (storable : root.Storable) :
    ∃ content, writeProof disk name root = .ok (disk.accept place content) ∧
      forall file, ProofFile.load (Disk.uniformLines content) file = .ok root := by
  rcases ProofFile.exists_text_of_storable storable with ⟨text, isText, loads⟩
  have written : disk.write name (text ++ "\n") = .ok (disk.accept place (text ++ "\n")) :=
    Disk.write_eq_ok_iff.mpr ⟨place, names, rfl⟩
  refine ⟨text ++ "\n", ?_, loads⟩
  simp only [writeProof, isText, written]

theorem readProof_accept_self (names : disk.NamesFile name place)
    (noSink : disk.entry? place ≠ some .sink) {content : String}
    (loads : forall file, ProofFile.load (Disk.uniformLines content) file = .ok root) :
    readProof (disk.accept place content) name = .ok root := by
  rw [Disk.accept_eq_insert noSink]
  exact readProof_eq_ok_iff.mpr ⟨_, names.read_insert_self content, loads name⟩

/-- Writing to another place leaves what is read from a file as it was. -/
theorem readProof_accept_ne (names : disk.NamesFile file place) {other : Place}
    (slot : disk.IsSlot other) (different : place ≠ other) (content : String) :
    readProof (disk.accept other content) file = readProof disk file := by
  by_cases isSink : disk.entry? other = some .sink
  · rw [Disk.accept, isSink]
  · rw [Disk.accept_eq_insert isSink, readProof, readProof,
      names.read_insert_ne slot different content]

theorem entry?_accept_ne {other : Place} (different : other ≠ place) (content : String) :
    Disk.entry? (disk.accept place content) other = disk.entry? other := by
  by_cases isSink : disk.entry? place = some .sink
  · rw [Disk.accept, isSink]
  · rw [Disk.accept_eq_insert isSink, Disk.entry?_insert_ne different]

end

/-! ## One command -/

/-- A file holds a derivation that can be stored. -/
structure Holds (disk : Disk) (file : String) (root : Derivation) : Prop where
  loads : readProof disk file = .ok root
  storable : root.Storable

section

variable {surroundings : Surroundings} {file : String} {root : Derivation} {typed : TypedEdit}

/-- What one command does, wherever it writes: it fails and changes nothing, or it succeeds
and writes a text that is loaded as the edited derivation. -/
theorem Holds.apply_to (holds : Holds surroundings.disk file root)
    (convertible : typed.Convertible) (output : Option String) {place : Place}
    (names : surroundings.disk.NamesFile (typed.request file output).target place) :
    ∃ result, apply surroundings (typed.request file output) = .ok result ∧
      (typed.edit?.bind root.edit? = none ->
        result.exitCode = 1 ∧ result.disk = surroundings.disk) ∧
      forall changed, typed.edit?.bind root.edit? = some changed ->
        result.exitCode = 0 ∧ changed.Storable ∧
          ∃ content, result.disk = surroundings.disk.accept place content ∧
            forall name, ProofFile.load (Disk.uniformLines content) name = .ok changed := by
  cases outcome : typed.edit?.bind root.edit? with
  | none =>
      rcases apply_of_rejected output holds.loads convertible outcome with
        ⟨result, applied, failed, unchanged⟩
      refine ⟨result, applied, fun _ => ⟨failed, unchanged⟩, ?_⟩
      intro changed impossible
      cases impossible
  | some changed =>
      rcases Option.bind_eq_some_iff.mp outcome with ⟨edit, isEdit, isChanged⟩
      have storable := holds.storable.edit? (convertible.printable isEdit) isChanged
      rcases exists_writeProof names storable with ⟨content, written, loads⟩
      rcases apply_of_accepted output holds.loads convertible outcome written with
        ⟨result, applied, succeeded, isDisk⟩
      refine ⟨result, applied, ?_, ?_⟩
      · intro impossible
        cases impossible
      · intro other same
        cases same
        exact ⟨succeeded, storable, content, isDisk, loads⟩

/-- A command without another file to write to. -/
theorem Holds.apply (holds : Holds surroundings.disk file root)
    (convertible : typed.Convertible) :
    ∃ result, CommandLine.apply surroundings (typed.request file none) = .ok result ∧
      (typed.edit?.bind root.edit? = none ->
        result.exitCode = 1 ∧ result.disk = surroundings.disk) ∧
      forall changed, typed.edit?.bind root.edit? = some changed ->
        result.exitCode = 0 ∧ Holds result.disk file changed := by
  rcases exists_namesFile_of_readProof holds.loads with ⟨place, names, noSink⟩
  rcases holds.apply_to convertible none names with ⟨result, applied, rejected, accepted⟩
  refine ⟨result, applied, rejected, ?_⟩
  intro changed isChanged
  rcases accepted changed isChanged with ⟨succeeded, storable, content, isDisk, loads⟩
  refine ⟨succeeded, ?_, storable⟩
  rw [isDisk]
  exact readProof_accept_self names noSink loads

/-- A command that writes to another file. -/
theorem Holds.apply_elsewhere (holds : Holds surroundings.disk file root)
    (convertible : typed.Convertible) {output : String} {place : Place}
    (names : surroundings.disk.NamesFile output place)
    (elsewhere : surroundings.disk.locate file ≠ .ok place) :
    ∃ result, CommandLine.apply surroundings (typed.request file (some output)) = .ok result ∧
      readProof result.disk file = .ok root ∧
      (forall other, other ≠ place ->
        Disk.entry? result.disk other = surroundings.disk.entry? other) ∧
      (typed.edit?.bind root.edit? = none ->
        result.exitCode = 1 ∧ result.disk = surroundings.disk) ∧
      forall changed, typed.edit?.bind root.edit? = some changed ->
        result.exitCode = 0 ∧ (surroundings.disk.entry? place ≠ some .sink ->
          readProof result.disk output = .ok changed) := by
  have isTarget : (typed.request file (some output)).target = output := by
    have nonempty := (Disk.locate_eq_ok_iff.mp names.located).1
    simp [ApplyRequest.target, TypedEdit.request, nonempty]
  rcases exists_namesFile_of_readProof holds.loads with ⟨filePlace, fileNames, _⟩
  have different : filePlace ≠ place := by
    rintro rfl
    exact elsewhere fileNames.located
  rcases holds.apply_to convertible (some output) (isTarget.symm ▸ names) with
    ⟨result, applied, rejected, accepted⟩
  refine ⟨result, applied, ?_, ?_, rejected, ?_⟩
  · cases outcome : typed.edit?.bind root.edit? with
    | none =>
        rw [(rejected outcome).2]
        exact holds.loads
    | some changed =>
        rcases accepted changed outcome with ⟨_, _, content, isDisk, _⟩
        rw [isDisk, readProof_accept_ne fileNames names.isSlot different]
        exact holds.loads
  · intro other notPlace
    cases outcome : typed.edit?.bind root.edit? with
    | none => rw [(rejected outcome).2]
    | some changed =>
        rcases accepted changed outcome with ⟨_, _, content, isDisk, _⟩
        rw [isDisk, entry?_accept_ne notPlace]
  · intro changed isChanged
    rcases accepted changed isChanged with ⟨succeeded, _, content, isDisk, loads⟩
    refine ⟨succeeded, fun noSink => ?_⟩
    rw [isDisk]
    exact readProof_accept_self names noSink loads

end

/-! ## Several commands -/

/-- The surroundings after a command.  What no command can report changes nothing. -/
def Surroundings.after (surroundings : Surroundings) (request : ApplyRequest) : Surroundings :=
  match apply surroundings request with
  | .ok result => { surroundings with disk := result.disk }
  | .error _ => surroundings

/-- The surroundings after several commands on a file. -/
def Surroundings.afterAll (surroundings : Surroundings) (file : String)
    (commands : List TypedEdit) : Surroundings :=
  commands.foldl (fun now command => now.after (command.request file none)) surroundings

theorem Holds.after {surroundings : Surroundings} {file : String} {root : Derivation}
    {typed : TypedEdit} (holds : Holds surroundings.disk file root)
    (convertible : typed.Convertible) :
    Holds (surroundings.after (typed.request file none)).disk file
      ((typed.edit?.bind root.edit?).getD root) := by
  rcases holds.apply convertible with ⟨result, applied, rejected, accepted⟩
  simp only [Surroundings.after, applied]
  cases outcome : typed.edit?.bind root.edit? with
  | none =>
      rw [(rejected outcome).2]
      exact holds
  | some changed => exact (accepted changed outcome).2

theorem edited_filterMap_cons (root : Derivation) (command : TypedEdit)
    (commands : List TypedEdit) :
    root.edited ((command :: commands).filterMap TypedEdit.edit?) =
      ((command.edit?.bind root.edit?).getD root).edited
        (commands.filterMap TypedEdit.edit?) := by
  rw [List.filterMap_cons]
  cases command.edit? <;> rfl

/-- After any commands, the file holds what their edits make of the derivation. -/
theorem Holds.afterAll {surroundings : Surroundings} {file : String} {root : Derivation}
    (holds : Holds surroundings.disk file root) {commands : List TypedEdit}
    (convertible : forall command, command ∈ commands -> command.Convertible) :
    Holds (surroundings.afterAll file commands).disk file
      (root.edited (commands.filterMap TypedEdit.edit?)) := by
  induction commands generalizing surroundings root with
  | nil => exact holds
  | cons command commands inductionHypothesis =>
      rw [edited_filterMap_cons]
      apply inductionHypothesis (holds.after (convertible command List.mem_cons_self))
      exact fun other member => convertible other (List.mem_cons_of_mem _ member)

/-- Commands make the edits that are made in memory, or none at all.  Let a file be loaded
as a derivation without infinite constants.  After any commands on it, the file is loaded
as what their edits make of the derivation.  The next command succeeds exactly if its path
and its assertions can be read and its edit is accepted, and then the file is loaded as the
new derivation; otherwise it fails and the disk is as it was.  A command that writes to
another file does the same with that file, and nothing at any other place changes. -/
theorem commands_refine_edits (surroundings : Surroundings) (file : String) (root : Derivation)
    (loaded : readProof surroundings.disk file = .ok root) (finite : root.IsFinite)
    (commands : List TypedEdit)
    (convertible : forall command, command ∈ commands -> command.Convertible)
    (next : TypedEdit) (nextConvertible : next.Convertible) :
    let now := surroundings.afterAll file commands
    let tree := root.edited (commands.filterMap TypedEdit.edit?)
    readProof now.disk file = .ok tree ∧
    (∃ result, apply now (next.request file none) = .ok result ∧
      (next.edit?.bind tree.edit? = none -> result.exitCode = 1 ∧ result.disk = now.disk) ∧
      forall changed, next.edit?.bind tree.edit? = some changed ->
        result.exitCode = 0 ∧ readProof result.disk file = .ok changed) ∧
    forall output place, now.disk.locate output = .ok place -> now.disk.locate file ≠ .ok place ->
      (∃ content written, now.disk.write output content = .ok written) ->
      ∃ result, apply now (next.request file (some output)) = .ok result ∧
        readProof result.disk file = .ok tree ∧
        (forall other, other ≠ place -> Disk.entry? result.disk other = now.disk.entry? other) ∧
        (next.edit?.bind tree.edit? = none -> result.exitCode = 1 ∧ result.disk = now.disk) ∧
        forall changed, next.edit?.bind tree.edit? = some changed ->
          result.exitCode = 0 ∧ (now.disk.entry? place ≠ some .sink ->
            readProof result.disk output = .ok changed) := by
  intro now tree
  have storable : root.Storable := by
    rcases readProof_eq_ok_iff.mp loaded with ⟨text, _, loads⟩
    exact ProofFile.storable_of_load loads finite
  have holds : Holds now.disk file tree := Holds.afterAll ⟨loaded, storable⟩ convertible
  refine ⟨holds.loads, ?_, ?_⟩
  · rcases holds.apply nextConvertible with ⟨result, applied, rejected, accepted⟩
    refine ⟨result, applied, rejected, ?_⟩
    intro changed isChanged
    rcases accepted changed isChanged with ⟨succeeded, holdsChanged⟩
    exact ⟨succeeded, holdsChanged.loads⟩
  · rintro output place located elsewhere ⟨content, written, isWritten⟩
    rcases Disk.write_eq_ok_iff.mp isWritten with ⟨other, names, _⟩
    cases names.located.symm.trans located
    exact holds.apply_elsewhere nextConvertible names elsewhere

/-! ## A file that is edited four times -/

/-- A file with a triple about two steps, of which nothing has been derived. -/
def startingDisk : Disk :=
  ⟨[], [(["f"], .text "\x7b\"pre\":\"p\",\"stmt\":\"skip; skip\",\"post\":\"p\"\x7d")]⟩

/-- The derivation in the file. -/
def starting : Derivation :=
  leaf ⟨.var "p", .seq .complete .skip .skip, .var "p"⟩

/-- The sequence is split. -/
def firstAttempt : TypedEdit :=
  ⟨".", .sequence, some (.text "p"), none, none⟩

/-- The first step is derived. -/
def lastAttempt : TypedEdit :=
  ⟨"0", .skip, none, none, none⟩

/-- After the sequence has been split, a node is named that is not there, a path cannot be
read, and an assertion cannot be read. -/
def attempts : List TypedEdit :=
  [firstAttempt, ⟨"2", .skip, none, none, none⟩, ⟨"first", .skip, none, none, none⟩,
    ⟨"0", .sequence, some (.text "p or"), none, none⟩]

/-- The derivation after the sequence has been split, with a step for its first premise. -/
def halved (first : Step) : Derivation :=
  .node ⟨.var "p", .seq .complete .skip .skip, .var "p"⟩ (.applied .sequence) false
    [.node ⟨.var "p", .skip, .var "p"⟩ first false [], leaf ⟨.var "p", .skip, .var "p"⟩]

theorem convertible_none : Convertible none := by
  constructor
  · intro _ _ _ impossible
    cases impossible
  · intro _ _ _ impossible
    cases impossible

theorem convertible_text {text : String} {stream : Token.Stream} (read : Option Expr)
    (lexed : Token.ofText text = .ok stream)
    (readable : forall token, token ∈ stream.tokens -> Parsing.Readable token)
    (isRead : Expr.ofText? .infixed text = .ok read)
    (finite : forall e value, read = some e -> value ∈ e.constants -> value.isFinite = true) :
    Convertible (some (.text text)) := by
  constructor
  · rintro _ _ token ⟨⟩ lexedAgain member
    cases lexed.symm.trans lexedAgain
    exact readable token member
  · rintro _ e value ⟨⟩ readAgain member
    cases isRead.symm.trans readAgain
    exact finite e value rfl member

theorem firstAttempt_convertible : firstAttempt.Convertible := by
  refine ⟨?_, convertible_none, convertible_none⟩
  apply convertible_text (some (.var "p")) rfl (by decide +kernel) rfl
  rintro _ value ⟨⟩ member
  cases member

theorem lastAttempt_convertible : lastAttempt.Convertible :=
  ⟨convertible_none, convertible_none, convertible_none⟩

theorem attempts_convertible : forall command, command ∈ attempts -> command.Convertible := by
  intro command member
  simp only [attempts, List.mem_cons, List.not_mem_nil, or_false] at member
  rcases member with rfl | rfl | rfl | rfl
  · exact firstAttempt_convertible
  · exact ⟨convertible_none, convertible_none, convertible_none⟩
  · exact ⟨convertible_none, convertible_none, convertible_none⟩
  · refine ⟨?_, convertible_none, convertible_none⟩
    apply convertible_text none rfl (by decide +kernel) rfl
    rintro _ _ ⟨⟩

theorem attempts_refine_edits :
    readProof startingDisk "f" = .ok starting ∧ starting.IsFinite ∧
      (∃ result, apply (Surroundings.afterAll ⟨startingDisk, none, false⟩ "f" attempts)
          (lastAttempt.request "f" none) = .ok result ∧
        result.exitCode = 0 ∧ readProof result.disk "f" = .ok (halved (.applied .skip))) ∧
      ∃ result, apply ⟨startingDisk, none, false⟩ (firstAttempt.request "f" (some "g")) =
          .ok result ∧
        result.exitCode = 0 ∧ readProof result.disk "f" = .ok starting ∧
          readProof result.disk "g" = .ok (halved .pending) := by
  have loaded : readProof startingDisk "f" = .ok starting := by
    apply eq_ok_of_toOption
    decide +kernel
  have finite : starting.IsFinite := by
    apply everywhere_leaf
    rintro triple ⟨⟩ value member
    cases member
  refine ⟨loaded, finite, ?_, ?_⟩
  · have isChanged : lastAttempt.edit?.bind (starting.edited
        (attempts.filterMap TypedEdit.edit?)).edit? = some (halved (.applied .skip)) := by
      decide +kernel
    rcases (commands_refine_edits ⟨startingDisk, none, false⟩ "f" starting loaded finite attempts
      attempts_convertible lastAttempt lastAttempt_convertible).2.1 with
      ⟨result, applied, _, accepted⟩
    exact ⟨result, applied, accepted _ isChanged⟩
  · have isChanged : firstAttempt.edit?.bind starting.edit? = some (halved .pending) := by
      decide +kernel
    have isFile : startingDisk.locate "f" = .ok ["f"] := by
      apply eq_ok_of_toOption
      decide +kernel
    have elsewhere : startingDisk.locate "f" ≠ .ok ["g"] := by
      rw [isFile]
      intro same
      exact absurd (Except.ok.inj same) (by decide)
    have located : startingDisk.locate "g" = .ok ["g"] := by
      apply eq_ok_of_toOption
      decide +kernel
    have noSink : startingDisk.entry? ["g"] ≠ some .sink := by
      intro isSink
      cases isSink
    rcases (commands_refine_edits ⟨startingDisk, none, false⟩ "f" starting loaded finite [] nofun
      firstAttempt firstAttempt_convertible).2.2 "g" ["g"] located elsewhere ⟨"", _, rfl⟩ with
      ⟨result, applied, unchanged, _, _, accepted⟩
    rcases accepted _ isChanged with ⟨succeeded, written⟩
    exact ⟨result, applied, succeeded, unchanged, written noSink⟩

end CommandLine
end HoareProof
