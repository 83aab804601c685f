import HoareProof.Json.Reader
import HoareProof.Json.Writer
import HoareProof.Proofs.Parsers

namespace HoareProof
namespace Json

/-!
Documents are read back.  The values are those without numbers, in which no object has
two fields of one name; the style keeps characters outside ASCII and indents with blanks.
A written value says where it ends, so what stands behind it does not matter.
-/

/-! ## Strings -/

theorem stringUnits_passed (text passed more : List Char) :
    stringUnits text passed.length (passed ++ more) = stringUnits text 0 more := by
  induction passed with
  | nil => rfl
  | cons c passed inductionHypothesis => exact inductionHypothesis

theorem stringUnits_escape {text more : List Char} (escape : List Char) {unit : Nat}
    (found : escapedUnit text ('\\' :: (escape ++ more)) = .ok (unit, escape.length))
    {units : List Nat} {rest : List Char} (read : stringUnits text 0 more = .ok (units, rest)) :
    stringUnits text 0 ('\\' :: (escape ++ more)) = .ok (unit :: units, rest) := by
  have notMark : ¬ '\\' = '\x22' := by decide
  rw [stringUnits, if_neg notMark, if_pos rfl, found, ok_bind]
  simp only [stringUnits_passed, read, ok_bind]
  rfl

theorem hexNumber?_hexDigits {n : Nat} (small : n < 32) :
    (Text.hexDigits 4 n).length = 4 ∧ hexNumber? (Text.hexDigits 4 n) = some n := by
  revert n
  decide +kernel

theorem escapedUnit_unitEscape {n : Nat} (small : n < 32) (text : List Char) {more : List Char}
    (nonempty : more ≠ []) :
    escapedUnit text ('\\' :: ('u' :: Text.hexDigits 4 n ++ more)) =
      .ok (n, ('u' :: Text.hexDigits 4 n).length) := by
  obtain ⟨four, value⟩ := hexNumber?_hexDigits small
  obtain ⟨c, rest, rfl⟩ := List.exists_cons_of_ne_nil nonempty
  have digits : (Text.hexDigits 4 n ++ c :: rest).take 4 = Text.hexDigits 4 n :=
    List.take_left' four
  have behind : (Text.hexDigits 4 n ++ c :: rest).drop 4 = c :: rest :=
    List.drop_left' four
  simp only [escapedUnit, List.drop_succ_cons, List.drop_zero, List.cons_append, digits, behind,
    value, List.length_cons, four]

/-- The characters written for a character are read as its code point. -/
theorem stringUnits_stringChar {text more : List Char} (c : Char) {units : List Nat}
    {rest : List Char} (read : stringUnits text 0 more = .ok (units, rest)) :
    stringUnits text 0 (stringChar false c ++ more) = .ok (c.toNat :: units, rest) := by
  have nonempty : more ≠ [] := by
    rintro rfl
    cases read
  unfold stringChar
  split
  next special =>
    have isOne : c = '\x22' ∨ c = '\\' := by simpa using special
    rcases isOne with rfl | rfl
    · exact stringUnits_escape ['\x22'] rfl read
    · exact stringUnits_escape ['\\'] rfl read
  next ordinary =>
    split
    next isNewline => exact isNewline ▸ stringUnits_escape ['n'] rfl read
    split
    next isReturn => exact isReturn ▸ stringUnits_escape ['r'] rfl read
    split
    next isTab => exact isTab ▸ stringUnits_escape ['t'] rfl read
    split
    next isFeed => exact isFeed ▸ stringUnits_escape ['f'] rfl read
    split
    next isBackspace => exact isBackspace ▸ stringUnits_escape ['b'] rfl read
    split
    next control =>
      have short : c.toNat < 0x10000 := by omega
      rw [charEscape, if_pos short]
      exact stringUnits_escape _ (escapedUnit_unitEscape control text nonempty) read
    next notControl =>
      have noMark : ¬ c = '\x22' := fun isMark => ordinary (by simp [isMark])
      have noEscape : ¬ c = '\\' := fun isEscape => ordinary (by simp [isEscape])
      simp only [Bool.false_and, Bool.false_eq_true, if_false, List.singleton_append, stringUnits,
        noMark, noEscape, notControl, read, ok_bind]
      rfl

theorem stringUnits_flatMap (text chars rest : List Char) :
    stringUnits text 0 (chars.flatMap (stringChar false) ++ '\x22' :: rest) =
      .ok (chars.map Char.toNat, rest) := by
  induction chars with
  | nil => rfl
  | cons c chars inductionHypothesis =>
      rw [List.flatMap_cons, List.append_assoc]
      exact stringUnits_stringChar c inductionHypothesis

theorem unitChar_toNat (c : Char) : unitChar c.toNat = c := by
  have valid : c.toNat.isValidChar := c.valid
  rw [unitChar, if_pos valid, Char.ofNat_toNat]

/-- Characters have no surrogates for code points, so none are joined. -/
theorem joinUnits_toNat (chars : List Char) : joinUnits (chars.map Char.toNat) = chars := by
  induction chars with
  | nil => rfl
  | cons c chars inductionHypothesis =>
      cases chars with
      | nil => simp [joinUnits, unitChar_toNat]
      | cons d chars =>
          have noSurrogate : ¬ (0xD800 ≤ c.toNat ∧ c.toNat < 0xDC00) := by
            rintro ⟨low, high⟩
            rcases c.valid with below | above
            · exact absurd low (Nat.not_le.mpr below)
            · exact absurd (Nat.lt_trans above.1 high) (by decide)
          simp only [List.map_cons] at inductionHypothesis ⊢
          rw [joinUnits, if_neg, unitChar_toNat, inductionHypothesis]
          simp only [Bool.and_eq_true, decide_eq_true_eq]
          rintro ⟨⟨high, _⟩, _⟩
          exact noSurrogate high

theorem toList_stringText (value : String) :
    (stringText false value).toList =
      '\x22' :: (value.toList.flatMap (stringChar false) ++ ['\x22']) := by
  simp [stringText]

theorem readString_stringText (value : String) (rest : List Char) :
    readString ((stringText false value).toList ++ rest) = .ok (value, rest) := by
  rw [toList_stringText, List.cons_append, List.append_assoc, List.singleton_append, readString]
  simp only [List.drop_succ_cons, List.drop_zero, stringUnits_flatMap, ok_bind, joinUnits_toNat,
    String.ofList_toList]
  rfl

/-! ## Blanks -/

/-- Nothing but spaces. -/
def IsBlank (chars : List Char) : Prop :=
  forall c, c ∈ chars -> isSpace c = true

theorem skipSpace_append {blanks : List Char} (blank : IsBlank blanks) (rest : List Char) :
    skipSpace (blanks ++ rest) = skipSpace rest :=
  List.dropWhile_append_of_pos blank

theorem skipSpace_cons {c : Char} (solid : isSpace c = false) (rest : List Char) :
    skipSpace (c :: rest) = c :: rest := by
  simp [skipSpace, solid]

theorem skipSpace_comma (rest : List Char) : skipSpace (',' :: rest) = ',' :: rest :=
  skipSpace_cons rfl rest

/-- A style that indents with spaces. -/
def Style.Blank (style : Style) : Prop :=
  forall indent, style.indent = some indent -> IsBlank indent.toList

section

variable {style : Style} (blank : style.Blank)

include blank

theorem isBlank_lineBreak (depth : Nat) : IsBlank (style.lineBreak depth).toList := by
  unfold Style.lineBreak
  split
  next _ isIndent =>
    intro c member
    simp only [String.toList_append, String.toList_join, List.mem_append, List.mem_flatMap,
      List.mem_replicate] at member
    rcases member with newline | ⟨_, ⟨_, rfl⟩, inside⟩
    · have isNewline : c = '\n' := by simpa using newline
      exact isNewline ▸ rfl
    · exact blank _ isIndent c inside
  next => nofun

theorem exists_toList_separator (depth : Nat) :
    ∃ pad, IsBlank pad ∧ (style.separator depth).toList = ',' :: pad := by
  unfold Style.separator
  split
  next => exact ⟨_, isBlank_lineBreak blank depth, by simp⟩
  next =>
    refine ⟨[' '], ?_, by simp⟩
    intro c member
    exact List.mem_singleton.mp member ▸ rfl

end

/-! ## Items and fields -/

/-- The characters that written values start with. -/
def starters : List Char := ['n', 't', 'f', '\x22', '[', '\x7b']

/-- A text that starts as a written value does. -/
def Starts (text : List Char) : Prop :=
  ∃ c more, text = c :: more ∧ c ∈ starters

theorem eq_of_mem_starters {c : Char} (starter : c ∈ starters) :
    c = 'n' ∨ c = 't' ∨ c = 'f' ∨ c = '\x22' ∨ c = '[' ∨ c = '\x7b' := by
  simpa [starters] using starter

theorem Starts.append {text : List Char} (starts : Starts text) (rest : List Char) :
    Starts (text ++ rest) := by
  obtain ⟨c, more, rfl, starter⟩ := starts
  exact ⟨c, more ++ rest, rfl, starter⟩

theorem Starts.skipSpace {text : List Char} (starts : Starts text) : skipSpace text = text := by
  obtain ⟨c, more, rfl, starter⟩ := starts
  apply skipSpace_cons
  rcases eq_of_mem_starters starter with rfl | rfl | rfl | rfl | rfl | rfl <;> rfl

theorem Starts.skipSpace_append {text : List Char} (starts : Starts text) {blanks : List Char}
    (blank : IsBlank blanks) : Json.skipSpace (blanks ++ text) = text := by
  rw [Json.skipSpace_append blank, starts.skipSpace]

theorem Starts.ne_nil {text : List Char} (starts : Starts text) : text ≠ [] := by
  obtain ⟨c, more, rfl, _⟩ := starts
  exact List.cons_ne_nil c more

theorem starts_stringText (value : String) : Starts (stringText false value).toList :=
  ⟨'\x22', _, toList_stringText value, by decide⟩

section

variable {Item : Type} {text : Item -> List Char} {items : List Item} (separator : List Char)

theorem starts_intercalate (nonempty : items ≠ [])
    (starts : forall item, item ∈ items -> Starts (text item)) :
    Starts (separator.intercalate (items.map text)) := by
  cases items with
  | nil => exact absurd rfl nonempty
  | cons item items =>
      have first := starts item List.mem_cons_self
      cases items with
      | nil => rwa [List.map_singleton, List.intercalate_singleton]
      | cons next items =>
          rw [List.map_cons, List.map_cons, List.intercalate_cons_cons, List.append_assoc]
          exact first.append _

theorem length_le_length_intercalate {item : Item} (member : item ∈ items) :
    (text item).length ≤ (separator.intercalate (items.map text)).length := by
  induction items with
  | nil => cases member
  | cons other items inductionHypothesis =>
      cases items with
      | nil =>
          apply Nat.le_of_eq
          rw [List.mem_singleton.mp member, List.map_singleton, List.intercalate_singleton]
      | cons next items =>
          rw [List.map_cons, List.map_cons, List.intercalate_cons_cons, List.length_append,
            List.length_append, ← List.map_cons]
          rcases List.mem_cons.mp member with rfl | later
          · omega
          · have atMost := inductionHypothesis later
            omega

theorem length_le_of_starts (starts : forall item, item ∈ items -> Starts (text item)) :
    items.length ≤ (separator.intercalate (items.map text)).length := by
  induction items with
  | nil => exact Nat.zero_le _
  | cons item items inductionHypothesis =>
      have first := List.length_pos_iff.mpr (starts item List.mem_cons_self).ne_nil
      cases items with
      | nil => rwa [List.map_singleton, List.intercalate_singleton]
      | cons next items =>
          have more := inductionHypothesis fun item member =>
            starts item (List.mem_cons_of_mem _ member)
          rw [List.map_cons, List.map_cons, List.intercalate_cons_cons, List.length_append,
            List.length_append, ← List.map_cons, List.length_cons]
          omega

end

section

variable {value : Reader Json} {pad blanks : List Char}

/-- Items are read one after the other if each of them is. -/
theorem readItems_intercalate (padBlank : IsBlank pad) (blank : IsBlank blanks)
    {text : Json -> List Char} {items : List Json} (nonempty : items ≠ [])
    (reads : forall item, item ∈ items -> forall rest, value (text item ++ rest) = .ok (item, rest))
    (starts : forall item, item ∈ items -> Starts (text item)) {bound : Nat}
    (enough : items.length ≤ bound) (rest : List Char) :
    readItems value bound
        (List.intercalate (',' :: pad) (items.map text) ++ (blanks ++ ']' :: rest)) =
      .ok (items, rest) := by
  induction items generalizing bound with
  | nil => exact absurd rfl nonempty
  | cons item items inductionHypothesis =>
      have readFirst := reads item List.mem_cons_self
      have close : skipSpace (blanks ++ ']' :: rest) = ']' :: rest := by
        rw [skipSpace_append blank, skipSpace_cons rfl]
      cases bound with
      | zero => cases enough
      | succ bound =>
          cases items with
          | nil =>
              rw [List.map_singleton, List.intercalate_singleton, readItems, readFirst, ok_bind]
              simp only [close]
              rfl
          | cons next more =>
              have others : forall item, item ∈ next :: more -> Starts (text item) :=
                fun item member => starts item (List.mem_cons_of_mem _ member)
              have following := starts_intercalate (',' :: pad) (List.cons_ne_nil _ _) others
              have readMore := inductionHypothesis (List.cons_ne_nil _ _)
                (fun item member => reads item (List.mem_cons_of_mem _ member)) others
                (Nat.le_of_succ_le_succ enough)
              rw [List.map_cons, List.map_cons, List.intercalate_cons_cons, ← List.map_cons,
                List.append_assoc, List.append_assoc, readItems, readFirst, ok_bind]
              simp only [List.cons_append, skipSpace_comma,
                (following.append _).skipSpace_append padBlank, readMore, ok_bind]
              rfl

theorem setField_of_notMem {name : String} {value : Json} {known : List (String × Json)}
    (fresh : name ∉ known.map Prod.fst) : setField name value known = known ++ [(name, value)] := by
  induction known with
  | nil => rfl
  | cons field known inductionHypothesis =>
      simp only [List.map_cons, List.mem_cons, not_or] at fresh
      rw [setField, if_neg (Ne.symm fresh.1), inductionHypothesis fresh.2, List.cons_append]

/-- The text of a field, given the text of its value. -/
def fieldText (text : Json -> List Char) (field : String × Json) : List Char :=
  (stringText false field.1).toList ++ (':' :: ' ' :: text field.2)

theorem starts_fieldText (text : Json -> List Char) (field : String × Json) :
    Starts (fieldText text field) :=
  (starts_stringText field.1).append _

theorem length_le_length_fieldText (text : Json -> List Char) (field : String × Json) :
    (text field.2).length ≤ (fieldText text field).length := by
  simp only [fieldText, List.length_append, List.length_cons]
  omega

/-- One field is read, and it goes behind those that are known if its name is new. -/
theorem readFields_fieldText {text : Json -> List Char} {field : String × Json}
    {known : List (String × Json)} (fresh : field.1 ∉ known.map Prod.fst)
    (reads : forall rest, value (text field.2 ++ rest) = .ok (field.2, rest))
    (starts : Starts (text field.2)) (bound : Nat) (rest : List Char) :
    readFields value (bound + 1) known (fieldText text field ++ rest) =
      match skipSpace rest with
      | '\x7d' :: rest => .ok (known ++ [field], rest)
      | ',' :: rest => readFields value bound (known ++ [field]) (skipSpace rest)
      | rest => .error (.fault .comma rest) := by
  have readName := readString_stringText field.1 (':' :: ' ' :: (text field.2 ++ rest))
  have colon (rest : List Char) : skipSpace (':' :: rest) = ':' :: rest := skipSpace_cons rfl rest
  have afterColon : skipSpace (' ' :: (text field.2 ++ rest)) = text field.2 ++ rest :=
    (starts.append rest).skipSpace
  rw [fieldText, List.append_assoc]
  rw [toList_stringText] at readName ⊢
  simp only [List.cons_append] at readName ⊢
  simp only [readFields, readName, ok_bind, colon, afterColon, reads, setField_of_notMem fresh]
  rfl

/-- Fields are read one after the other if the value of each is.  A field goes behind
those before it, because its name is new. -/
theorem readFields_intercalate (padBlank : IsBlank pad) (blank : IsBlank blanks)
    {text : Json -> List Char} {fields : List (String × Json)} (nonempty : fields ≠ [])
    (reads : forall field, field ∈ fields ->
      forall rest, value (text field.2 ++ rest) = .ok (field.2, rest))
    (starts : forall field, field ∈ fields -> Starts (text field.2)) {bound : Nat}
    (enough : fields.length ≤ bound) {known : List (String × Json)}
    (distinct : ((known ++ fields).map Prod.fst).Nodup) (rest : List Char) :
    readFields value bound known
        (List.intercalate (',' :: pad) (fields.map (fieldText text)) ++
          (blanks ++ '\x7d' :: rest)) =
      .ok (known ++ fields, rest) := by
  induction fields generalizing bound known with
  | nil => exact absurd rfl nonempty
  | cons field fields inductionHypothesis =>
      have readFirst := reads field List.mem_cons_self
      have startsFirst := starts field List.mem_cons_self
      have fresh : field.1 ∉ known.map Prod.fst := by
        rw [List.map_append, List.map_cons, List.nodup_append] at distinct
        intro member
        exact distinct.2.2 field.1 member field.1 List.mem_cons_self rfl
      have close : skipSpace (blanks ++ '\x7d' :: rest) = '\x7d' :: rest := by
        rw [skipSpace_append blank, skipSpace_cons rfl]
      cases bound with
      | zero => cases enough
      | succ bound =>
          cases fields with
          | nil =>
              rw [List.map_singleton, List.intercalate_singleton,
                readFields_fieldText fresh readFirst startsFirst, close]
              rfl
          | cons next more =>
              have others : forall field, field ∈ next :: more -> Starts (fieldText text field) :=
                fun field _ => starts_fieldText text field
              have following := starts_intercalate (',' :: pad) (List.cons_ne_nil _ _) others
              have moved : known ++ field :: next :: more = (known ++ [field]) ++ next :: more := by
                simp
              rw [moved] at distinct ⊢
              have readMore := inductionHypothesis (List.cons_ne_nil _ _)
                (fun field member => reads field (List.mem_cons_of_mem _ member))
                (fun field member => starts field (List.mem_cons_of_mem _ member))
                (Nat.le_of_succ_le_succ enough) distinct
              rw [List.map_cons, List.map_cons, List.intercalate_cons_cons, ← List.map_cons,
                List.append_assoc, List.append_assoc,
                readFields_fieldText fresh readFirst startsFirst]
              simp only [List.cons_append, skipSpace_comma,
                (following.append _).skipSpace_append padBlank, readMore]

end

/-! ## Values -/

/-- A value without numbers, in which no object has two fields of one name. -/
inductive Plain : Json -> Prop where
  | null : Plain .null
  | bool (value : Bool) : Plain (.bool value)
  | string (value : String) : Plain (.string value)
  | array {items : List Json} (each : forall item, item ∈ items -> Plain item) :
      Plain (.array items)
  | object {fields : List (String × Json)} (each : forall field, field ∈ fields -> Plain field.2)
      (distinct : (fields.map Prod.fst).Nodup) : Plain (.object fields)

/-- A value as characters. -/
def chars (style : Style) (depth : Nat) (value : Json) : List Char :=
  (writeAt style depth value).toList

attribute [local simp] writeAt writeItems writeFields

theorem writeItems_eq_map (style : Style) (depth : Nat) (items : List Json) :
    writeItems style depth items = items.map (writeAt style depth) := by
  induction items with
  | nil => rfl
  | cons item items inductionHypothesis => rw [writeItems, inductionHypothesis, List.map_cons]

theorem toList_writeFields {style : Style} (unconfined : style.asciiOnly = false) (depth : Nat)
    (fields : List (String × Json)) :
    (writeFields style depth fields).map String.toList =
      fields.map (fieldText (chars style depth)) := by
  induction fields with
  | nil => rfl
  | cons field fields inductionHypothesis =>
      obtain ⟨name, value⟩ := field
      rw [writeFields, List.map_cons, List.map_cons, inductionHypothesis, unconfined]
      simp [fieldText, chars]

theorem toList_bracket (style : Style) (depth : Nat) (opening closing : String)
    {items : List String} (nonempty : items ≠ []) :
    (style.bracket depth opening closing items).toList =
      opening.toList ++ ((style.lineBreak (depth + 1)).toList ++
        (List.intercalate (style.separator (depth + 1)).toList (items.map String.toList) ++
          ((style.lineBreak depth).toList ++ closing.toList))) := by
  obtain ⟨item, items, rfl⟩ := List.exists_cons_of_ne_nil nonempty
  simp [Style.bracket, String.toList_intercalate]

theorem chars_array {style : Style} (depth : Nat) {items : List Json} (nonempty : items ≠ []) :
    chars style depth (.array items) =
      '[' :: ((style.lineBreak (depth + 1)).toList ++
        (List.intercalate (style.separator (depth + 1)).toList
          (items.map (chars style (depth + 1))) ++ ((style.lineBreak depth).toList ++ [']']))) := by
  rw [chars, writeAt, writeItems_eq_map, toList_bracket _ _ _ _ (by simpa using nonempty),
    List.map_map]
  rfl

theorem chars_object {style : Style} (unconfined : style.asciiOnly = false) (depth : Nat)
    {fields : List (String × Json)} (nonempty : fields ≠ []) :
    chars style depth (.object fields) =
      '\x7b' :: ((style.lineBreak (depth + 1)).toList ++
        (List.intercalate (style.separator (depth + 1)).toList
          (fields.map (fieldText (chars style (depth + 1)))) ++
            ((style.lineBreak depth).toList ++ ['\x7d']))) := by
  have written := toList_writeFields unconfined (depth + 1) fields
  have someWritten : writeFields style (depth + 1) fields ≠ [] := by
    intro empty
    rw [empty, List.map_nil] at written
    exact nonempty (List.map_eq_nil_iff.mp written.symm)
  rw [chars, writeAt, toList_bracket _ _ _ _ someWritten, written]
  rfl

theorem chars_null (style : Style) (depth : Nat) :
    chars style depth .null = ['n', 'u', 'l', 'l'] := by
  simp [chars]

theorem chars_true (style : Style) (depth : Nat) :
    chars style depth (.bool true) = ['t', 'r', 'u', 'e'] := by
  simp [chars]

theorem chars_false (style : Style) (depth : Nat) :
    chars style depth (.bool false) = ['f', 'a', 'l', 's', 'e'] := by
  simp [chars]

theorem chars_string {style : Style} (unconfined : style.asciiOnly = false) (depth : Nat)
    (value : String) : chars style depth (.string value) = (stringText false value).toList := by
  rw [chars, writeAt, unconfined]

theorem chars_array_nil (style : Style) (depth : Nat) :
    chars style depth (.array []) = ['[', ']'] := by
  simp [chars, writeAt, writeItems, Style.bracket]

theorem chars_object_nil (style : Style) (depth : Nat) :
    chars style depth (.object []) = ['\x7b', '\x7d'] := by
  simp [chars, writeAt, writeFields, Style.bracket]

theorem starts_chars {style : Style} (unconfined : style.asciiOnly = false) (depth : Nat)
    {value : Json} (plain : Plain value) : Starts (chars style depth value) := by
  cases plain with
  | null => exact ⟨'n', _, chars_null style depth, by decide⟩
  | bool value =>
      cases value with
      | false => exact ⟨'f', _, chars_false style depth, by decide⟩
      | true => exact ⟨'t', _, chars_true style depth, by decide⟩
  | string value =>
      rw [chars_string unconfined]
      exact starts_stringText value
  | @array items _ =>
      cases items with
      | nil => exact ⟨'[', _, chars_array_nil style depth, by decide⟩
      | cons item items => exact ⟨'[', _, chars_array depth (List.cons_ne_nil _ _), by decide⟩
  | @object fields _ _ =>
      cases fields with
      | nil => exact ⟨'\x7b', _, chars_object_nil style depth, by decide⟩
      | cons field fields =>
          exact ⟨'\x7b', _, chars_object unconfined depth (List.cons_ne_nil _ _), by decide⟩

/-- What does not start with the closing bracket is read as the items of an array. -/
theorem readValue_array {bound : Nat} {inner text : List Char} (starts : Starts text)
    (skipped : skipSpace inner = text) {items : List Json} {rest : List Char}
    (read : readItems (readValue bound) (text.length + 1) text = .ok (items, rest)) :
    readValue (bound + 1) ('[' :: inner) = .ok (.array items, rest) := by
  obtain ⟨c, more, rfl, starter⟩ := starts
  simp only [readValue, skipped]
  split
  next closing =>
    rw [(List.cons.inj closing).1] at starter
    exact absurd starter (by decide)
  next =>
    rw [read]
    rfl

theorem readValue_object {bound : Nat} {inner text : List Char} (starts : Starts text)
    (skipped : skipSpace inner = text) {fields : List (String × Json)} {rest : List Char}
    (read : readFields (readValue bound) (text.length + 1) [] text = .ok (fields, rest)) :
    readValue (bound + 1) ('\x7b' :: inner) = .ok (.object fields, rest) := by
  obtain ⟨c, more, rfl, starter⟩ := starts
  simp only [readValue, skipped]
  split
  next closing =>
    rw [(List.cons.inj closing).1] at starter
    exact absurd starter (by decide)
  next =>
    rw [read]
    rfl

section

variable {style : Style} (unconfined : style.asciiOnly = false) (blank : style.Blank)

/-- A written value is read, whatever stands behind it, if the bound allows for its
length. -/
def Reads (style : Style) (value : Json) : Prop :=
  forall (depth bound : Nat) (rest : List Char), (chars style depth value).length ≤ bound ->
    readValue bound (chars style depth value ++ rest) = .ok (value, rest)

include unconfined blank

theorem reads_array {items : List Json} (plain : forall item, item ∈ items -> Plain item)
    (reads : forall item, item ∈ items -> Reads style item) : Reads style (.array items) := by
  intro depth bound rest enough
  cases bound with
  | zero =>
      have positive := List.length_pos_iff.mpr (starts_chars unconfined depth (.array plain)).ne_nil
      omega
  | succ bound =>
      by_cases empty : items = []
      · subst empty
        rw [chars_array_nil]
        rfl
      · obtain ⟨pad, padBlank, isSeparator⟩ := exists_toList_separator blank (depth + 1)
        have starts : forall item, item ∈ items -> Starts (chars style (depth + 1) item) :=
          fun item member => starts_chars unconfined (depth + 1) (plain item member)
        have inside := starts_intercalate (',' :: pad) empty starts
        have count := length_le_of_starts (',' :: pad) starts
        -- The brackets take two characters, so the bound that is left allows for every item.
        rw [chars_array depth empty, isSeparator] at enough ⊢
        simp only [List.length_cons, List.length_append] at enough
        simp only [List.cons_append, List.append_assoc, List.nil_append]
        apply readValue_array (inside.append _)
          ((inside.append _).skipSpace_append (isBlank_lineBreak blank (depth + 1)))
        apply readItems_intercalate padBlank (isBlank_lineBreak blank depth) empty _ starts
        · rw [List.length_append]
          omega
        · intro item member rest
          apply reads item member (depth + 1) bound rest
          exact Nat.le_trans (length_le_length_intercalate (',' :: pad) member) (by omega)

theorem reads_object {fields : List (String × Json)}
    (plain : forall field, field ∈ fields -> Plain field.2)
    (distinct : (fields.map Prod.fst).Nodup)
    (reads : forall field, field ∈ fields -> Reads style field.2) :
    Reads style (.object fields) := by
  intro depth bound rest enough
  cases bound with
  | zero =>
      have positive := List.length_pos_iff.mpr
        (starts_chars unconfined depth (.object plain distinct)).ne_nil
      omega
  | succ bound =>
      by_cases empty : fields = []
      · subst empty
        rw [chars_object_nil]
        rfl
      · obtain ⟨pad, padBlank, isSeparator⟩ := exists_toList_separator blank (depth + 1)
        have starts : forall field, field ∈ fields -> Starts (chars style (depth + 1) field.2) :=
          fun field member => starts_chars unconfined (depth + 1) (plain field member)
        have fieldStarts : forall field, field ∈ fields ->
            Starts (fieldText (chars style (depth + 1)) field) :=
          fun field _ => starts_fieldText _ field
        have inside := starts_intercalate (',' :: pad) empty fieldStarts
        have count := length_le_of_starts (',' :: pad) fieldStarts
        rw [chars_object unconfined depth empty, isSeparator] at enough ⊢
        simp only [List.length_cons, List.length_append] at enough
        simp only [List.cons_append, List.append_assoc, List.nil_append]
        apply readValue_object (inside.append _)
          ((inside.append _).skipSpace_append (isBlank_lineBreak blank (depth + 1)))
        apply readFields_intercalate padBlank (isBlank_lineBreak blank depth) empty _ starts
        · rw [List.length_append]
          omega
        · exact distinct
        · intro field member rest
          apply reads field member (depth + 1) bound rest
          apply Nat.le_trans (length_le_length_fieldText _ field)
          exact Nat.le_trans (length_le_length_intercalate (',' :: pad) member) (by omega)

theorem Plain.reads {value : Json} (plain : Plain value) : Reads style value := by
  induction plain with
  | null =>
      intro depth bound rest enough
      rw [chars_null] at enough ⊢
      cases bound with
      | zero => cases enough
      | succ bound => rfl
  | bool value =>
      intro depth bound rest enough
      cases value with
      | false =>
          rw [chars_false] at enough ⊢
          cases bound with
          | zero => cases enough
          | succ bound => rfl
      | true =>
          rw [chars_true] at enough ⊢
          cases bound with
          | zero => cases enough
          | succ bound => rfl
  | string value =>
      intro depth bound rest enough
      have read := readString_stringText value rest
      rw [chars_string unconfined] at enough ⊢
      rw [toList_stringText] at enough read ⊢
      cases bound with
      | zero => cases enough
      | succ bound =>
          simp only [List.cons_append] at read ⊢
          simp only [readValue, read, ok_bind]
          rfl
  | array plain reads => exact reads_array unconfined blank plain reads
  | object plain distinct reads => exact reads_object unconfined blank plain distinct reads

/-- A document that is written with blanks, and has more of them behind it, is read as the
value that was written. -/
theorem ofText_append {value : Json} (plain : Plain value) {text : String} {blanks : List Char}
    (behind : IsBlank blanks) (isText : text.toList = chars style 0 value ++ blanks) :
    ofText text = .ok value := by
  have starts := starts_chars unconfined 0 plain
  have skipped := (starts.append blanks).skipSpace
  have enough : (chars style 0 value).length ≤ (chars style 0 value ++ blanks).length + 1 := by
    rw [List.length_append]
    omega
  have read := plain.reads unconfined blank 0 _ blanks enough
  have nothingElse : skipSpace blanks = [] := by
    rw [← List.append_nil blanks, skipSpace_append behind]
    rfl
  rcases starts with ⟨c, more, isChars, starter⟩
  rw [isChars, List.cons_append] at read skipped isText
  rw [ofText, isText]
  simp only [skipped, read, nothingElse]
  rcases eq_of_mem_starters starter with rfl | rfl | rfl | rfl | rfl | rfl <;> rfl

theorem ofText_write {value : Json} (plain : Plain value) :
    ofText (value.write style) = .ok value := by
  have nothing : IsBlank [] := nofun
  exact ofText_append unconfined blank plain nothing (List.append_nil _).symm

end

/-! ## Line ends -/

theorem return_notMem_stringChar (c : Char) : '\r' ∉ stringChar false c := by
  have noReturn : forall n, n < 32 -> '\r' ∉ unitEscape n := by decide +kernel
  unfold stringChar
  split
  next special =>
    have isOne : c = '\x22' ∨ c = '\\' := by simpa using special
    rcases isOne with rfl | rfl <;> decide
  next =>
    split
    · decide
    split
    · decide
    next isReturn =>
      split
      · decide
      split
      · decide
      split
      · decide
      split
      next control =>
        rw [charEscape, if_pos (by omega)]
        exact noReturn c.toNat control
      next => simpa using Ne.symm isReturn

theorem return_notMem_stringText (value : String) : '\r' ∉ (stringText false value).toList := by
  rw [toList_stringText]
  intro member
  simp only [List.mem_cons, List.mem_append, List.mem_flatMap, List.not_mem_nil, or_false] at member
  rcases member with isMark | ⟨c, _, inside⟩ | isMark
  · exact absurd isMark (by decide)
  · exact return_notMem_stringChar c inside
  · exact absurd isMark (by decide)

theorem mem_or_mem_of_mem_intercalate {c : Char} {separator : List Char} {items : List (List Char)}
    (member : c ∈ separator.intercalate items) :
    c ∈ separator ∨ ∃ item, item ∈ items ∧ c ∈ item := by
  induction items with
  | nil => cases member
  | cons item items inductionHypothesis =>
      cases items with
      | nil =>
          rw [List.intercalate_singleton] at member
          exact Or.inr ⟨item, List.mem_cons_self, member⟩
      | cons next items =>
          rw [List.intercalate_cons_cons, List.mem_append, List.mem_append] at member
          rcases member with (inside | between) | later
          · exact Or.inr ⟨item, List.mem_cons_self, inside⟩
          · exact Or.inl between
          · rcases inductionHypothesis later with between | ⟨other, isOther, inside⟩
            · exact Or.inl between
            · exact Or.inr ⟨other, List.mem_cons_of_mem _ isOther, inside⟩

/-- A style that indents without carriage returns. -/
def Style.Returnless (style : Style) : Prop :=
  forall indent, style.indent = some indent -> '\r' ∉ indent.toList

section

variable {style : Style} (unconfined : style.asciiOnly = false) (returnless : style.Returnless)

include returnless

theorem return_notMem_lineBreak (depth : Nat) : '\r' ∉ (style.lineBreak depth).toList := by
  unfold Style.lineBreak
  split
  next _ isIndent =>
    intro member
    simp only [String.toList_append, String.toList_join, List.mem_append, List.mem_flatMap,
      List.mem_replicate] at member
    rcases member with newline | ⟨_, ⟨_, rfl⟩, inside⟩
    · exact absurd newline (by decide)
    · exact returnless _ isIndent inside
  next => exact List.not_mem_nil

theorem return_notMem_separator (depth : Nat) : '\r' ∉ (style.separator depth).toList := by
  unfold Style.separator
  split
  next =>
    rw [String.toList_append, List.mem_append, not_or]
    exact ⟨by decide, return_notMem_lineBreak returnless depth⟩
  next => decide

/-- Between brackets there is no carriage return if there is none in an item. -/
theorem return_notMem_bracketed {opening closing : Char} {depth : Nat} {items : List (List Char)}
    (opens : '\r' ≠ opening) (closes : '\r' ≠ closing)
    (each : forall item, item ∈ items -> '\r' ∉ item) :
    '\r' ∉ opening :: ((style.lineBreak (depth + 1)).toList ++
      (List.intercalate (style.separator (depth + 1)).toList items ++
        ((style.lineBreak depth).toList ++ [closing]))) := by
  intro member
  simp only [List.mem_cons, List.mem_append, List.not_mem_nil, or_false] at member
  rcases member with atStart | before | inside | after | atEnd
  · exact opens atStart
  · exact return_notMem_lineBreak returnless _ before
  · rcases mem_or_mem_of_mem_intercalate inside with between | ⟨item, isItem, inItem⟩
    · exact return_notMem_separator returnless _ between
    · exact each item isItem inItem
  · exact return_notMem_lineBreak returnless _ after
  · exact closes atEnd

include unconfined

/-- Carriage returns inside strings are escaped, and none stand elsewhere. -/
theorem Plain.return_notMem_chars {value : Json} (plain : Plain value) (depth : Nat) :
    '\r' ∉ chars style depth value := by
  induction plain generalizing depth with
  | null =>
      rw [chars_null]
      decide
  | bool value =>
      cases value with
      | false =>
          rw [chars_false]
          decide
      | true =>
          rw [chars_true]
          decide
  | string value =>
      rw [chars_string unconfined]
      exact return_notMem_stringText value
  | @array items _ inductionHypothesis =>
      by_cases empty : items = []
      · subst empty
        rw [chars_array_nil]
        decide
      · rw [chars_array depth empty]
        apply return_notMem_bracketed returnless (by decide) (by decide)
        intro text isText
        rcases List.mem_map.mp isText with ⟨item, isItem, rfl⟩
        exact inductionHypothesis item isItem (depth + 1)
  | @object fields _ _ inductionHypothesis =>
      by_cases empty : fields = []
      · subst empty
        rw [chars_object_nil]
        decide
      · rw [chars_object unconfined depth empty]
        apply return_notMem_bracketed returnless (by decide) (by decide)
        intro text isText inText
        rcases List.mem_map.mp isText with ⟨field, isField, rfl⟩
        simp only [fieldText, List.mem_append, List.mem_cons] at inText
        rcases inText with inName | isColon | isSpace | inValue
        · exact return_notMem_stringText field.1 inName
        · exact absurd isColon (by decide)
        · exact absurd isSpace (by decide)
        · exact inductionHypothesis field isField (depth + 1) inValue

end

end Json
end HoareProof
