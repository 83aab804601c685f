import HoareProof.Number.Basic
import HoareProof.Parsing

namespace HoareProof

/-!
Successful parsing.  A parser that succeeds has had every one of its steps succeed, and
a text is read as a whole when its tokens are, up to the last of them.

A parser fails in two ways.  Tokens outside its grammar are a text without a value; a
number without a value is an error, and such an error is to be blamed on a token.
-/

theorem bind_eq_ok_iff {Error First Second : Type} {attempt : Except Error First}
    {next : First -> Except Error Second} {result : Second} :
    (attempt >>= next) = .ok result ↔ ∃ value, attempt = .ok value ∧ next value = .ok result := by
  cases attempt with
  | error e => simp [bind, Except.bind]
  | ok value => simp [bind, Except.bind]

theorem bind_eq_error_iff {Error First Second : Type} {attempt : Except Error First}
    {next : First -> Except Error Second} {error : Error} :
    (attempt >>= next) = .error error ↔
      attempt = .error error ∨ ∃ value, attempt = .ok value ∧ next value = .error error := by
  cases attempt with
  | error e => simp [bind, Except.bind]
  | ok value => simp [bind, Except.bind]

@[simp] theorem ok_bind {Error First Second : Type} (value : First)
    (next : First -> Except Error Second) : (Except.ok value >>= next) = next value :=
  rfl

@[simp] theorem error_bind {Error First Second : Type} (e : Error)
    (next : First -> Except Error Second) : (Except.error e >>= next) = Except.error e :=
  rfl

namespace Parsing

theorem expect_eq_ok_iff {kind : TokenKind} {tokens rest : List Token} :
    expect kind tokens = .ok rest ↔ ∃ token, tokens = token :: rest ∧ token.kind = kind := by
  cases tokens with
  | nil => simp [expect]
  | cons token tokens =>
      simp only [expect]
      split
      next isKind =>
        constructor
        · intro read
          cases read
          exact ⟨token, rfl, isKind⟩
        · rintro ⟨_, same, _⟩
          cases same
          rfl
      next otherKind =>
        constructor
        · intro read
          cases read
        · rintro ⟨_, same, isKind⟩
          cases same
          exact absurd isKind otherKind

/-- A parser that takes its value from tokens that derive it, and leaves the rest of the
tokens as they are. -/
def Consumes {Value : Type} (parser : Parser Value) (derives : List Token -> Value -> Prop) :
    Prop :=
  forall tokens value rest, parser tokens = .ok (value, rest) ->
    ∃ used, tokens = used ++ rest ∧ derives used value

theorem Consumes.subset {Value : Type} {parser : Parser Value}
    {derives : List Token -> Value -> Prop} (consumes : Consumes parser derives)
    {tokens rest : List Token} {value : Value} (read : parser tokens = .ok (value, rest)) :
    rest ⊆ tokens := by
  rcases consumes tokens value rest read with ⟨used, rfl, _⟩
  exact List.subset_append_right used rest

theorem Consumes.whole {Value : Type} {parser : Parser Value}
    {derives : List Token -> Value -> Prop} (consumes : Consumes parser derives)
    {tokens : List Token} {value : Value} (read : parser tokens = .ok (value, [])) :
    derives tokens value := by
  rcases consumes tokens value [] read with ⟨used, whole, derived⟩
  rw [List.append_nil] at whole
  rw [whole]
  exact derived

/-- A token is read as a number. -/
inductive Denotes : Token -> Number -> Prop where
  | whole {token : Token} {value : Nat} (kind : token.kind = .whole)
      (reads : wholeValue token = .ok value) : Denotes token (.whole value)
  | decimal {token : Token} {value : Binary64} (kind : token.kind = .decimal)
      (reads : decimalValue token = .ok value) : Denotes token (.double value)

theorem wholeValue_eq_ok_iff {token : Token} {value : Nat} :
    wholeValue token = .ok value ↔ Numeral.readWhole token.text = .ok value := by
  unfold wholeValue
  split <;> simp_all

theorem decimalValue_eq_ok_iff {token : Token} {value : Binary64} :
    decimalValue token = .ok value ↔ Numeral.readDecimal token.text = .ok value := by
  unfold decimalValue
  split <;> simp_all

/-- A text has a value when the parser reads its tokens to the last. -/
theorem readAll?_eq_some_iff {Value : Type} {parser : Parser Value} {text : String}
    {value : Value} :
    readAll? parser text = .ok (some value) ↔
      ∃ stream, Token.ofText text = .ok stream ∧ parser stream.tokens = .ok (value, []) := by
  unfold readAll? readFrom
  cases lexed : Token.ofText text with
  | error e => simp
  | ok stream =>
      simp only [List.drop_zero, Except.ok.injEq, exists_eq_left']
      cases read : parser stream.tokens with
      | error e => cases e <;> simp [ParseError.locate]
      | ok result =>
          obtain ⟨found, rest⟩ := result
          cases rest <;> simp

/-! ## Numbers without a value -/

/-- A token that is no number, or a number with a value. -/
def Readable (token : Token) : Prop :=
  (token.kind = .whole -> (wholeValue token).isOk = true) ∧
    (token.kind = .decimal -> (decimalValue token).isOk = true)

instance (token : Token) : Decidable (Readable token) :=
  inferInstanceAs (Decidable (_ ∧ _))

/-- A number token that has no value, and the error it gives. -/
inductive Unreadable : Token -> NumeralError -> Prop where
  | whole {token : Token} {error : NumeralError} (kind : token.kind = .whole)
      (fails : wholeValue token = .error (.numeral error)) : Unreadable token error
  | decimal {token : Token} {error : NumeralError} (kind : token.kind = .decimal)
      (fails : decimalValue token = .error (.numeral error)) : Unreadable token error

theorem Unreadable.not_readable {token : Token} {error : NumeralError}
    (unreadable : Unreadable token error) : ¬ Readable token := by
  intro readable
  cases unreadable with
  | whole kind fails =>
      have reads := readable.1 kind
      rw [fails] at reads
      cases reads
  | decimal kind fails =>
      have reads := readable.2 kind
      rw [fails] at reads
      cases reads

/-- Some token gives an error. -/
def Blamed (tokens : List Token) (error : NumeralError) : Prop :=
  ∃ token, token ∈ tokens ∧ Unreadable token error

theorem Blamed.mono {tokens more : List Token} {error : NumeralError} (blamed : Blamed tokens error)
    (included : tokens ⊆ more) : Blamed more error := by
  rcases blamed with ⟨token, member, unreadable⟩
  exact ⟨token, included member, unreadable⟩

theorem Blamed.cons {token : Token} {tokens : List Token} {error : NumeralError}
    (blamed : Blamed tokens error) : Blamed (token :: tokens) error :=
  blamed.mono (List.subset_cons_self token tokens)

/-- A parser whose numeral errors are those of its tokens. -/
def Blames {Value : Type} (parser : Parser Value) : Prop :=
  forall tokens error, parser tokens = .error (.numeral error) -> Blamed tokens error

theorem expect_ne_numeral {kind : TokenKind} {tokens : List Token} {error : NumeralError} :
    expect kind tokens ≠ .error (.numeral error) := by
  intro fails
  cases tokens with
  | nil => cases fails
  | cons token rest =>
      simp only [expect] at fails
      split at fails <;> cases fails

/-- Of a token that is read for its value, the blame is on the token. -/
theorem blamed_of_value {Read Value : Type} {token : Token} {tokens : List Token}
    {error : NumeralError} {attempt : Except ParseError Read} {build : Read -> Value}
    (unreadable : attempt = .error (.numeral error) -> Unreadable token error)
    (fails : (attempt >>= fun value => .ok (build value)) = .error (.numeral error)) :
    Blamed (token :: tokens) error := by
  rcases bind_eq_error_iff.mp fails with failsRead | ⟨value, _, succeeds⟩
  · exact ⟨token, List.mem_cons_self, unreadable failsRead⟩
  · cases succeeds

/-- What is expected is not a number, so its absence is not a numeral error. -/
theorem blamed_of_expect {Value : Type} {kind : TokenKind} {tokens : List Token}
    {error : NumeralError} {next : List Token -> Except ParseError Value}
    (fails : (expect kind tokens >>= next) = .error (.numeral error))
    (blames : forall rest, next rest = .error (.numeral error) -> Blamed rest error) :
    Blamed tokens error := by
  rcases bind_eq_error_iff.mp fails with missing | ⟨rest, isExpected, failsNext⟩
  · exact absurd missing expect_ne_numeral
  · rcases expect_eq_ok_iff.mp isExpected with ⟨token, rfl, _⟩
    exact (blames rest failsNext).cons

/-- After a part that has been read, the blame is on the part or on what follows it. -/
theorem blamed_of_part {Part Value : Type} {parser : Parser Part}
    {derives : List Token -> Part -> Prop} (consumes : Consumes parser derives)
    (blames : Blames parser) {tokens : List Token} {error : NumeralError}
    {next : Part × List Token -> Except ParseError Value}
    (fails : (parser tokens >>= next) = .error (.numeral error))
    (blamesNext : forall part rest, next (part, rest) = .error (.numeral error) ->
      Blamed rest error) :
    Blamed tokens error := by
  rcases bind_eq_error_iff.mp fails with failsPart | ⟨⟨part, rest⟩, readPart, failsNext⟩
  · exact blames tokens error failsPart
  · exact (blamesNext part rest failsNext).mono (consumes.subset readPart)

/-- The errors of reading a text are those of its tokens. -/
theorem blamed_of_readAll? {Value : Type} {parser : Parser Value} (blames : Blames parser)
    {text : String} {error : NumeralError} (fails : readAll? parser text = .error error) :
    ∃ stream, Token.ofText text = .ok stream ∧ Blamed stream.tokens error := by
  unfold readAll? readFrom at fails
  cases lexed : Token.ofText text with
  | error e =>
      rw [lexed] at fails
      cases fails
  | ok stream =>
      simp only [lexed, List.drop_zero] at fails
      refine ⟨stream, rfl, ?_⟩
      cases read : parser stream.tokens with
      | ok result =>
          simp only [read] at fails
          cases fails
      | error e =>
          simp only [read] at fails
          cases e with
          | misfit misfit => cases fails
          | numeral e =>
              cases fails
              exact blames stream.tokens error read

/-- A text is read according to what is derived for it: it has the value that is derived,
of which there is at most one, and it has none if nothing is. -/
structure ReadsExactly {Value : Type} (outcome : Except NumeralError (Option Value))
    (derived : Value -> Prop) : Prop where
  reads : forall value, outcome = .ok (some value) ↔ derived value
  unique : forall value other, derived value -> derived other -> value = other
  rejects : outcome = .ok none ↔ ¬ ∃ value, derived value

/-- A parser that agrees with a grammar on tokens reads texts according to the grammar,
as long as their numbers have values. -/
theorem readsExactly_of_agrees {Value : Type} {parser : Parser Value}
    {derives : List Token -> Value -> Prop}
    (agrees : forall tokens value, parser tokens = .ok (value, []) ↔ derives tokens value)
    (blames : Blames parser) {text : String} {stream : Token.Stream}
    (lexed : Token.ofText text = .ok stream)
    (readable : forall token, token ∈ stream.tokens -> Readable token) :
    ReadsExactly (readAll? parser text) (derives stream.tokens) := by
  have reads : forall value, readAll? parser text = .ok (some value) ↔
      derives stream.tokens value := by
    intro value
    rw [readAll?_eq_some_iff, ← agrees, lexed]
    simp
  refine ⟨reads, ?_, ?_⟩
  · intro value other derived derivedToo
    have first := (reads value).mpr derived
    have second := (reads other).mpr derivedToo
    exact Option.some.inj (Except.ok.inj (first.symm.trans second))
  · constructor
    · rintro rejected ⟨value, derived⟩
      have accepted := (reads value).mpr derived
      rw [rejected] at accepted
      cases accepted
    · intro nothing
      cases outcome : readAll? parser text with
      | error error =>
          rcases blamed_of_readAll? blames outcome with ⟨same, lexedToo, token, member, unreadable⟩
          cases lexed.symm.trans lexedToo
          exact absurd (readable token member) unreadable.not_readable
      | ok found =>
          cases found with
          | none => rfl
          | some value => exact absurd ⟨value, (reads value).mp outcome⟩ nothing

end Parsing
end HoareProof
