import HoareProof.Disk
import HoareProof.Proofs.Parsers

namespace HoareProof
namespace Disk

/-!
What writing to a disk does.  A name leads to a file through directories only, so a text
that is put at its end makes no new directory and takes none away.  All names go on
leading where they led, and the text is read where it was written and nowhere else.
-/

/-! ## Directories -/

/-- A place is a directory when something leads to it: the working directory, what is
further down, or a directory at the place itself. -/
theorem isDirectory_iff {disk : Disk} {place : Place} :
    disk.isDirectory place = true ↔
      place <+: disk.working ∨ ∃ entry, entry ∈ disk.entries ∧ place <+: entry.1 ∧
        (entry.1 = place -> entry.2 = .directory) := by
  rw [isDirectory, Bool.or_eq_true, List.isPrefixOf_iff_prefix, List.any_eq_true]
  refine or_congr_right (exists_congr fun entry => and_congr_right fun _ => ?_)
  rcases entry with ⟨other, content⟩
  cases content with
  | directory => simp
  | text content | bytes content | sink =>
      simp only [Bool.and_eq_true, List.isPrefixOf_iff_prefix, decide_eq_true_eq, reduceCtorEq,
        imp_false]
      refine and_congr_right fun within => ?_
      constructor
      · rintro shorter rfl
        exact Nat.lt_irrefl _ shorter
      · intro different
        apply Nat.lt_of_le_of_ne within.length_le
        intro sameLength
        exact different (within.eq_of_length sameLength).symm

theorem isDirectory_above {disk : Disk} {shorter longer : Place} (within : shorter <+: longer)
    (isDirectory : disk.isDirectory longer = true) : disk.isDirectory shorter = true := by
  rcases isDirectory_iff.mp isDirectory with isWorking | ⟨entry, member, leads, kind⟩
  · exact isDirectory_iff.mpr (Or.inl (within.trans isWorking))
  · refine isDirectory_iff.mpr (Or.inr ⟨entry, member, within.trans leads, ?_⟩)
    rintro rfl
    -- What leads to the longer place leads to the shorter one only if they are the same.
    exact kind (leads.eq_of_length_le within.length_le).symm

theorem isDirectory_origin (disk : Disk) (name : String) :
    disk.isDirectory (disk.origin name) = true := by
  apply isDirectory_iff.mpr
  rw [origin]
  split
  · exact Or.inl List.nil_prefix
  · exact Or.inl (List.prefix_refl _)

/-! ## Entries -/

section

variable {place other : Place} {entry : DiskEntry} {entries : List (Place × DiskEntry)}

theorem lookup_setEntry_self : (setEntry place entry entries).lookup place = some entry := by
  induction entries with
  | nil => rw [setEntry, List.lookup_cons, beq_self_eq_true]
  | cons head rest inductionHypothesis =>
      rcases head with ⟨first, content⟩
      rw [setEntry]
      split
      · rw [List.lookup_cons, beq_self_eq_true]
      next different =>
        rw [List.lookup_cons, beq_false_of_ne (Ne.symm different)]
        exact inductionHypothesis

theorem lookup_setEntry_ne (different : other ≠ place) :
    (setEntry place entry entries).lookup other = entries.lookup other := by
  induction entries with
  | nil =>
      rw [setEntry, List.lookup_cons, beq_false_of_ne different]
  | cons head rest inductionHypothesis =>
      rcases head with ⟨first, content⟩
      rw [setEntry]
      split
      next isPlace =>
        cases isPlace
        rw [List.lookup_cons, List.lookup_cons, beq_false_of_ne different]
      · rw [List.lookup_cons, List.lookup_cons, inductionHypothesis]

theorem mem_setEntry_self : (place, entry) ∈ setEntry place entry entries := by
  induction entries with
  | nil => exact List.mem_cons_self
  | cons head rest inductionHypothesis =>
      rw [setEntry]
      split
      · exact List.mem_cons_self
      · exact List.mem_cons_of_mem _ inductionHypothesis

theorem mem_setEntry_of_ne {old : Place × DiskEntry} (member : old ∈ entries)
    (different : old.1 ≠ place) : old ∈ setEntry place entry entries := by
  induction entries with
  | nil => cases member
  | cons head rest inductionHypothesis =>
      rw [setEntry]
      rcases List.mem_cons.mp member with rfl | later
      · rw [if_neg different]
        exact List.mem_cons_self
      · split
        · exact List.mem_cons_of_mem _ later
        · exact List.mem_cons_of_mem _ (inductionHypothesis later)

theorem mem_of_mem_setEntry {found : Place × DiskEntry}
    (member : found ∈ setEntry place entry entries) :
    found = (place, entry) ∨ found ∈ entries := by
  induction entries with
  | nil => exact Or.inl (List.mem_singleton.mp member)
  | cons head rest inductionHypothesis =>
      rw [setEntry] at member
      split at member
      · rcases List.mem_cons.mp member with isNew | later
        · exact Or.inl isNew
        · exact Or.inr (List.mem_cons_of_mem _ later)
      · rcases List.mem_cons.mp member with isHead | later
        · exact Or.inr (isHead ▸ List.mem_cons_self)
        · exact (inductionHypothesis later).imp_right (List.mem_cons_of_mem _)

end

/-- A place for a file: it is in a directory, and is none itself. -/
structure IsSlot (disk : Disk) (place : Place) : Prop where
  free : disk.isDirectory place = false
  within : ∃ directory part, place = directory ++ [part] ∧ disk.isDirectory directory = true

/-- Writing a file makes no directory and takes none away. -/
theorem isDirectory_insert {disk : Disk} {place : Place} (slot : disk.IsSlot place)
    (content : String) (other : Place) :
    (disk.insert place (.text content)).isDirectory other = disk.isDirectory other := by
  rw [Bool.eq_iff_iff]
  constructor
  · intro isDirectory
    rcases isDirectory_iff.mp isDirectory with isWorking | ⟨entry, member, leads, kind⟩
    · exact isDirectory_iff.mpr (Or.inl isWorking)
    · rcases mem_of_mem_setEntry member with rfl | isOld
      · -- What leads to the file goes through the directory that it is in.
        rcases slot.within with ⟨directory, part, rfl, inDirectory⟩
        rcases List.prefix_concat_iff.mp leads with isFile | above
        · cases kind isFile.symm
        · exact isDirectory_above above inDirectory
      · exact isDirectory_iff.mpr (Or.inr ⟨entry, isOld, leads, kind⟩)
  · intro isDirectory
    rcases isDirectory_iff.mp isDirectory with isWorking | ⟨entry, member, leads, kind⟩
    · exact isDirectory_iff.mpr (Or.inl isWorking)
    · apply isDirectory_iff.mpr
      refine Or.inr ?_
      by_cases isPlace : entry.1 = place
      · -- The file that was there led to the same directories.
        refine ⟨(place, .text content), mem_setEntry_self, isPlace ▸ leads, ?_⟩
        rintro rfl
        have wasDirectory : disk.isDirectory place = true := isDirectory
        rw [slot.free] at wasDirectory
        cases wasDirectory
      · exact ⟨entry, mem_setEntry_of_ne member isPlace, leads, kind⟩

/-! ## Names -/

theorem enter_eq_ok_iff {disk : Disk} {place : Place} :
    disk.enter place = .ok () ↔ disk.isDirectory place = true := by
  unfold enter
  split
  next isDirectory => simp [isDirectory]
  next noDirectory => split <;> simp [noDirectory]

/-- Each part of a name is taken from a directory. -/
theorem follow_cons_eq_ok_iff {disk : Disk} {place target : Place} {part : String}
    {rest : List String} :
    disk.follow place (part :: rest) = .ok target ↔
      disk.isDirectory place = true ∧ ¬ longestPart < part.utf8ByteSize ∧
        disk.follow (step place part) rest = .ok target := by
  rw [follow, bind_eq_ok_iff]
  constructor
  · rintro ⟨_, entered, followed⟩
    split at followed
    · cases followed
    next short => exact ⟨enter_eq_ok_iff.mp entered, short, followed⟩
  · rintro ⟨isDirectory, short, followed⟩
    refine ⟨(), enter_eq_ok_iff.mpr isDirectory, ?_⟩
    rw [if_neg short]
    exact followed

theorem follow_congr {disk changed : Disk}
    (same : forall place, changed.isDirectory place = disk.isDirectory place)
    {place target : Place} {parts : List String} :
    changed.follow place parts = .ok target ↔ disk.follow place parts = .ok target := by
  induction parts generalizing place with
  | nil => exact Iff.rfl
  | cons part rest inductionHypothesis =>
      rw [follow_cons_eq_ok_iff, follow_cons_eq_ok_iff, same, inductionHypothesis]

theorem follow_append_eq_ok_iff {disk : Disk} {place target : Place} {front back : List String} :
    disk.follow place (front ++ back) = .ok target ↔
      ∃ middle, disk.follow place front = .ok middle ∧ disk.follow middle back = .ok target := by
  induction front generalizing place with
  | nil => simp [follow]
  | cons part rest inductionHypothesis =>
      rw [List.cons_append, follow_cons_eq_ok_iff, inductionHypothesis]
      constructor
      · rintro ⟨isDirectory, short, middle, toMiddle, toTarget⟩
        exact ⟨middle, follow_cons_eq_ok_iff.mpr ⟨isDirectory, short, toMiddle⟩, toTarget⟩
      · rintro ⟨middle, toMiddle, toTarget⟩
        rcases follow_cons_eq_ok_iff.mp toMiddle with ⟨isDirectory, short, followed⟩
        exact ⟨isDirectory, short, middle, followed, toTarget⟩

/-- From a directory, a name leads to a place that is a directory itself or is in one. -/
theorem isSlot_of_follow {disk : Disk} {place target : Place} {parts : List String}
    (isDirectory : disk.isDirectory place = true)
    (followed : disk.follow place parts = .ok target)
    (free : disk.isDirectory target = false) : disk.IsSlot target := by
  induction parts generalizing place with
  | nil =>
      cases followed
      rw [isDirectory] at free
      cases free
  | cons part rest inductionHypothesis =>
      rcases follow_cons_eq_ok_iff.mp followed with ⟨_, _, followedRest⟩
      by_cases goesOn : disk.isDirectory (step place part) = true
      · exact inductionHypothesis goesOn followedRest
      · have isNew : step place part = place ++ [part] := by
          unfold step at goesOn ⊢
          split at goesOn
          · exact absurd isDirectory goesOn
          · split at goesOn
            · exact absurd (isDirectory_above (List.dropLast_prefix place) isDirectory) goesOn
            next noDot noParent => rw [if_neg noDot, if_neg noParent]
        cases rest with
        | nil =>
            cases followedRest
            exact ⟨free, place, part, isNew, isDirectory⟩
        | cons next rest => exact absurd (follow_cons_eq_ok_iff.mp followedRest).1 goesOn

theorem locate_eq_ok_iff {disk : Disk} {name : String} {place : Place} :
    disk.locate name = .ok place ↔
      name.isEmpty = false ∧ ¬ longestName < name.utf8ByteSize ∧
        disk.follow (disk.origin name) (parts name) = .ok place := by
  unfold locate
  split
  next empty => simp [empty]
  next nonempty =>
    split
    next long => simp [long]
    next short => simp [nonempty, short]

/-- A name leads to a place for a file. -/
structure NamesFile (disk : Disk) (name : String) (place : Place) : Prop where
  plain : name.toList.contains '\x00' = false
  located : disk.locate name = .ok place
  free : disk.isDirectory place = false

section

variable {disk : Disk} {name : String} {place : Place}

theorem NamesFile.isSlot (names : disk.NamesFile name place) : disk.IsSlot place :=
  isSlot_of_follow (disk.isDirectory_origin name) (locate_eq_ok_iff.mp names.located).2.2 names.free

/-- A text that is written somewhere leaves every name leading where it led. -/
theorem NamesFile.insert (names : disk.NamesFile name place) {other : Place}
    (slot : disk.IsSlot other) (content : String) :
    (disk.insert other (.text content)).NamesFile name place := by
  have same := isDirectory_insert slot content
  refine ⟨names.plain, ?_, (same place).trans names.free⟩
  rcases locate_eq_ok_iff.mp names.located with ⟨nonempty, short, followed⟩
  exact locate_eq_ok_iff.mpr ⟨nonempty, short, (follow_congr same).mpr followed⟩

end

/-! ## Writing -/

theorem splitAt_ne_nil (mark : Char) (chars : List Char) : Text.splitAt mark chars ≠ [] := by
  cases chars with
  | nil => exact List.cons_ne_nil _ _
  | cons c chars =>
      rw [Text.splitAt]
      split
      · exact List.cons_ne_nil _ _
      · split <;> exact List.cons_ne_nil _ _

theorem splitAt_concat (mark : Char) (chars : List Char) :
    Text.splitAt mark (chars ++ [mark]) = Text.splitAt mark chars ++ [[]] := by
  induction chars with
  | nil => simp [Text.splitAt]
  | cons c chars inductionHypothesis =>
      rw [List.cons_append, Text.splitAt, Text.splitAt, inductionHypothesis]
      split
      · rfl
      · cases isSplit : Text.splitAt mark chars with
        | nil => exact absurd isSplit (splitAt_ne_nil mark chars)
        | cons part parts => rfl

section

variable {disk : Disk} {name : String} {place : Place}

/-- A name with a slash at its end leads to a directory if it leads anywhere. -/
theorem NamesFile.getLast?_ne (names : disk.NamesFile name place) :
    name.toList.getLast? ≠ some '/' := by
  intro endsInSlash
  rcases List.getLast?_eq_some_iff.mp endsInSlash with ⟨front, isName⟩
  have followed := (locate_eq_ok_iff.mp names.located).2.2
  rw [parts, isName, splitAt_concat, List.map_append, follow_append_eq_ok_iff] at followed
  rcases followed with ⟨middle, _, fromMiddle⟩
  rcases follow_cons_eq_ok_iff.mp fromMiddle with ⟨isDirectory, _, stays⟩
  have isMiddle : step middle (String.ofList []) = middle := by simp [step]
  rw [isMiddle] at stays
  cases stays
  have free := names.free
  rw [isDirectory] at free
  cases free

theorem withoutTrailingSlashes_of_getLast? (plain : name.toList.getLast? ≠ some '/') :
    withoutTrailingSlashes name = name := by
  have kept : name.toList.reverse.dropWhile (· = '/') = name.toList.reverse := by
    rw [List.getLast?_eq_head?_reverse] at plain
    cases reversed : name.toList.reverse with
    | nil => rfl
    | cons c rest =>
        rw [reversed] at plain
        apply List.dropWhile_cons_of_neg
        simpa using plain
  rw [withoutTrailingSlashes, kept, List.reverse_reverse, String.ofList_toList]

theorem withoutTrailingSlashes_of_length
    (long : ¬ (withoutTrailingSlashes name).length < name.length) :
    withoutTrailingSlashes name = name := by
  have suffix := List.dropWhile_suffix (l := name.toList.reverse) (· = '/')
  have sameLength : name.toList.reverse.length ≤
      (name.toList.reverse.dropWhile (· = '/')).length := by
    have sizes := Nat.not_lt.mp long
    rw [withoutTrailingSlashes, ← String.length_toList, ← String.length_toList] at sizes
    simpa using sizes
  rw [withoutTrailingSlashes, suffix.eq_of_length_le sameLength, List.reverse_reverse,
    String.ofList_toList]

/-- A text is written exactly to a name that leads to a place for a file. -/
theorem write_eq_ok_iff {content : String} {changed : Disk} :
    disk.write name content = .ok changed ↔
      ∃ place, disk.NamesFile name place ∧ disk.accept place content = changed := by
  constructor
  · intro written
    unfold write at written
    split at written
    · cases written
    next plain =>
      simp only at written
      split at written
      · cases written
      · split at written
        · cases written
        next place located =>
          split at written
          · cases written
          next taken =>
            rw [Bool.or_eq_true, decide_eq_true_eq, not_or] at taken
            rw [withoutTrailingSlashes_of_length taken.2] at located
            have free := Bool.eq_false_iff.mpr taken.1
            exact ⟨place, ⟨Bool.eq_false_iff.mpr plain, located, free⟩, Except.ok.inj written⟩
  · rintro ⟨place, names, rfl⟩
    have whole := withoutTrailingSlashes_of_getLast? names.getLast?_ne
    have nonempty := (locate_eq_ok_iff.mp names.located).1
    simp only [write, names.plain, whole, nonempty, names.located, names.free, Nat.lt_irrefl]
    rfl

theorem accept_eq_insert {content : String} (noSink : disk.entry? place ≠ some .sink) :
    disk.accept place content = disk.insert place (.text content) := by
  unfold accept
  split
  next isSink => exact absurd isSink noSink
  · rfl

/-! ## Reading -/

/-- A text without carriage returns has uniform line ends. -/
theorem uniformLines_of_notMem {text : String} (noReturn : '\r' ∉ text.toList) :
    uniformLines text = text := by
  have unchanged : forall chars : List Char, '\r' ∉ chars ->
      Text.normalizeLineEnds chars = chars := by
    intro chars noReturn
    fun_induction Text.normalizeLineEnds chars with
    | case1 => rfl
    | case2 | case3 => simp at noReturn
    | case4 c rest _ _ inductionHypothesis =>
        rw [inductionHypothesis fun member => noReturn (List.mem_cons_of_mem _ member)]
  rw [uniformLines, unchanged _ noReturn, String.ofList_toList]

/-- What is read at a place that holds an entry. -/
def reading : Option DiskEntry -> Except DiskError String
  | some (.text content) => .ok (uniformLines content)
  | some (.bytes content) =>
      match Text.decode content with
      | .ok text => .ok (uniformLines text)
      | .error e => .error (.encoding e)
  | some .sink => .ok ""
  | _ => .error (.refused .noEntry)

theorem NamesFile.read_eq (names : disk.NamesFile name place) :
    disk.read name = reading (disk.entry? place) := by
  rw [read, names.plain, names.located]
  simp only [names.free]
  rfl

theorem exists_namesFile_of_read {text : String} (found : disk.read name = .ok text) :
    ∃ place, disk.NamesFile name place := by
  unfold read at found
  split at found
  · cases found
  next plain =>
    split at found
    · cases found
    next place located =>
      split at found
      · cases found
      next free =>
        exact ⟨place, Bool.eq_false_iff.mpr plain, located, Bool.eq_false_iff.mpr free⟩

theorem entry?_insert_self (entry : DiskEntry) :
    Disk.entry? (disk.insert place entry) place = some entry :=
  lookup_setEntry_self

theorem entry?_insert_ne {other : Place} (different : other ≠ place) (entry : DiskEntry) :
    Disk.entry? (disk.insert place entry) other = disk.entry? other :=
  lookup_setEntry_ne different

/-- A text is read where it was written. -/
theorem NamesFile.read_insert_self (names : disk.NamesFile name place) (content : String) :
    (disk.insert place (.text content)).read name = .ok (uniformLines content) := by
  rw [(names.insert names.isSlot content).read_eq, entry?_insert_self]
  rfl

/-- Where no text was written, what is read stays the same. -/
theorem NamesFile.read_insert_ne (names : disk.NamesFile name place) {other : Place}
    (slot : disk.IsSlot other) (different : place ≠ other) (content : String) :
    (disk.insert other (.text content)).read name = disk.read name := by
  rw [(names.insert slot content).read_eq, names.read_eq, entry?_insert_ne different]

end

end Disk
end HoareProof
