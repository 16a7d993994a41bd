import FilterEditor.CommandLine.Files
import FilterEditor.Proofs.Lookup
import FilterEditor.Proofs.Splitting

/-!
# Files in memory

What stands on a way after directories were made or a file was written: the directories on the way are
there, the file is what was written, and everything beside them is as before. Directories can be made along
a way exactly if no file stands on it (`makeAlong_spec`), and so a file can be written exactly where
`Writable` says so.
-/

namespace FilterEditor.CommandLine

variable {path : Text} {names way above : List Text} {entry : Entry} {t t' : FileTree}

/-! ## Ways -/

/-- Whether a part of a path is a name. -/
def isName (part : Text) : Bool := !part.isEmpty && part != ['.']

lemma pathNames_join (named : ∀ name ∈ names, isName name = true ∧ '/' ∉ name) :
    pathNames (Text.join ['/'] names) = names :=
  Text.filter_splitOn_join rfl named

lemma isName_of_mem {name : Text} (mem : name ∈ pathNames path) : isName name = true ∧ '/' ∉ name := by
  obtain ⟨part, named⟩ := List.mem_filter.mp mem
  exact ⟨named, Text.not_mem_splitOn part⟩

/-- A stroke at the start is in no name. -/
lemma pathNames_root (path : Text) : pathNames ('/' :: path) = pathNames path := by
  rw [pathNames, List.splitOn_cons_eq_if_modifyHead, if_pos (beq_self_eq_true _),
    List.filter_cons_of_neg (by decide)]
  rfl

/-- The way to the directory of a file is the way to the file without its name. -/
lemma pathNames_parentPath (path : Text) : pathNames (parentPath path) = (pathNames path).dropLast := by
  have joined : pathNames (Text.join ['/'] (pathNames path).dropLast) = (pathNames path).dropLast :=
    pathNames_join fun name mem => isName_of_mem (List.dropLast_subset _ mem)
  rw [parentPath]
  split
  · exact (pathNames_root _).trans joined
  · exact joined

namespace FileTree

lemma find_put_self (nonempty : names ≠ []) : (t.put names entry).find names = entry := by
  rw [find, if_neg (by simpa using nonempty), put, List.lookup_cons, beq_self_eq_true]
  rfl

lemma find_put_of_ne (other : way ≠ names) : (t.put names entry).find way = t.find way := by
  rw [find, find, put, List.lookup_cons, beq_false_of_ne other, lookup_filter_ne, if_neg other]

/-! ## Directories -/

/-- No file stands on the way along `names` behind `above`. -/
def Passable (above names : List Text) (t : FileTree) : Prop :=
  ∀ part, part ≠ [] → part <+: names → ∀ content, t.find (above ++ part) ≠ .file content

/-- Directories were made along a way: they are there, and everything else is as before. -/
structure Made (above names : List Text) (t t' : FileTree) : Prop where
  directories : ∀ part, part ≠ [] → part <+: names → t'.find (above ++ part) = .directory
  others : ∀ way, (∀ part, part ≠ [] → part <+: names → way ≠ above ++ part) → t'.find way = t.find way

/-- What begins a way that is not empty begins with its first name. -/
lemma forall_parts_cons {name : Text} {P : List Text → Prop} :
    (∀ part, part ≠ [] → part <+: name :: names → P part) ↔
      P [name] ∧ ∀ part, part ≠ [] → part <+: names → P (name :: part) := by
  constructor
  · intro all
    refine ⟨all [name] (List.cons_ne_nil _ _) ⟨names, rfl⟩, ?_⟩
    intro part _ begins
    exact all _ (List.cons_ne_nil _ _) (List.cons_prefix_cons.mpr ⟨rfl, begins⟩)
  · rintro ⟨first, more⟩ part nonempty begins
    obtain ⟨head, part, rfl⟩ := List.exists_cons_of_ne_nil nonempty
    obtain ⟨rfl, rest⟩ := List.cons_prefix_cons.mp begins
    by_cases last : part = []
    · rw [last]
      exact first
    · exact more part last rest

lemma passable_cons {name : Text} :
    t.Passable above (name :: names) ↔
      (∀ content, t.find (above ++ [name]) ≠ .file content) ∧ t.Passable (above ++ [name]) names := by
  rw [Passable, forall_parts_cons]
  refine and_congr_right fun _ => forall_congr' fun part => ?_
  rw [List.append_cons]

/-- What stands beside a way decides nothing. -/
lemma passable_congr {way : List Text} (same : ∀ other, other ≠ way → t'.find other = t.find other) :
    t'.Passable way names ↔ t.Passable way names := by
  have behind {part : List Text} (nonempty : part ≠ []) : t'.find (way ++ part) = t.find (way ++ part) :=
    same _ (by simpa using nonempty)
  constructor
  · intro passable part nonempty begins
    rw [← behind nonempty]
    exact passable part nonempty begins
  · intro passable part nonempty begins
    rw [behind nonempty]
    exact passable part nonempty begins

/-- Where no file stands, a directory is there or is made. -/
lemma makeAlong_cons {name : Text} (free : ∀ content, t.find (above ++ [name]) ≠ .file content)
    (names : List Text) :
    ∃ made : FileTree, makeAlong above (name :: names) t = makeAlong (above ++ [name]) names made ∧
      made.find (above ++ [name]) = .directory ∧
      ∀ way, way ≠ above ++ [name] → made.find way = t.find way := by
  rw [makeAlong]
  cases found : t.find (above ++ [name]) with
  | missing => exact ⟨_, rfl, find_put_self (by simp), fun way => find_put_of_ne⟩
  | directory => exact ⟨t, rfl, found, fun _ _ => rfl⟩
  | file content => exact (free content found).elim

lemma makeAlong_of_file {name : Text} {content : Option Text}
    (found : t.find (above ++ [name]) = .file content) (names : List Text) :
    makeAlong above (name :: names) t = none := by
  rw [makeAlong, found]

/-- Directories are made along a way exactly if no file stands on it. -/
lemma makeAlong_spec (above names : List Text) (t : FileTree) :
    (∃ t', makeAlong above names t = some t' ∧ t.Passable above names ∧ Made above names t t') ∨
      (makeAlong above names t = none ∧ ¬ t.Passable above names) := by
  induction names generalizing above t with
  | nil =>
    have none {part : List Text} (nonempty : part ≠ []) (begins : part <+: []) : False :=
      nonempty (List.prefix_nil.mp begins)
    refine .inl ⟨t, rfl, fun part nonempty begins => (none nonempty begins).elim, ?_, fun _ _ => rfl⟩
    exact fun part nonempty begins => (none nonempty begins).elim
  | cons name names ih =>
    by_cases free : ∀ content, t.find (above ++ [name]) ≠ .file content
    · obtain ⟨made, step, directory, others⟩ := makeAlong_cons free names
      rw [step, passable_cons, ← passable_congr others]
      rcases ih (above ++ [name]) made with ⟨t', done, passable, along⟩ | ⟨done, blocked⟩
      · refine .inl ⟨t', done, ⟨free, passable⟩, ?_, ?_⟩
        · rw [forall_parts_cons]
          refine ⟨?_, fun part nonempty begins => ?_⟩
          · rw [along.others _ (fun part nonempty _ => by simpa using nonempty), directory]
          · rw [List.append_cons]
            exact along.directories part nonempty begins
        · intro way
          rw [forall_parts_cons]
          rintro ⟨other, beside⟩
          have beside : ∀ part, part ≠ [] → part <+: names → way ≠ above ++ [name] ++ part := by
            intro part nonempty begins
            rw [← List.append_cons]
            exact beside part nonempty begins
          rw [along.others way beside, others way other]
      · exact .inr ⟨done, fun passable => blocked passable.2⟩
    · obtain ⟨content, found⟩ := not_forall_not.mp free
      exact .inr ⟨makeAlong_of_file found names, fun passable => free (passable_cons.mp passable).1⟩

/-! ## Files -/

/-- A file can be written under a path: the path does not say that it is one of a directory, no directory
stands there, and no file stands on the way. -/
structure Writable (path : Text) (t : FileTree) : Prop where
  file : namesDirectory path = false
  free : t.find (pathNames path) ≠ .directory
  way : t.Passable [] (pathNames path).dropLast

lemma Made.find_dropLast (made : Made [] names.dropLast t t') : t'.find names.dropLast = .directory := by
  by_cases top : names.dropLast = []
  · rw [top]
    rfl
  · exact made.directories _ top List.prefix_rfl

/-- The directories on the way to a file are made beside it. -/
lemma Made.find_self (made : Made [] names.dropLast t t') : t'.find names = t.find names := by
  apply made.others
  rintro part nonempty begins rfl
  have short := begins.length_le
  have some := List.length_pos_iff.mpr nonempty
  rw [List.length_dropLast] at short
  omega

lemma write?_of_directory (above : t.find (pathNames path).dropLast = .directory) (content : Text) :
    write? path content t =
      if namesDirectory path = true ∨ t.find (pathNames path) = .directory then none
      else some (t.put (pathNames path) (.file content)) := by
  rw [write?, above]
  cases t.find (pathNames path) <;> simp

/-- A file that was written is found. -/
lemma entry_put (file : namesDirectory path = false) (nonempty : pathNames path ≠ []) (content : Text) :
    (t.put (pathNames path) (.file content)).entry path = .file content := by
  rw [entry, find_put_self nonempty, file]
  rfl

/-- Makes the directories on the way to a file and writes it. -/
def store? (path content : Text) (t : FileTree) : Option FileTree :=
  (makeDirectories? (parentPath path) t).bind (write? path content)

lemma store?_of_made (made : makeAlong [] (pathNames path).dropLast t = some t') (content : Text) :
    store? path content t = write? path content t' := by
  rw [store?, makeDirectories?, pathNames_parentPath, made]
  rfl

/-- Where a file can be written it is there once it is stored. -/
lemma Writable.store (h : t.Writable path) (content : Text) :
    ∃ t', store? path content t = some t' ∧ t'.entry path = .file content := by
  have nonempty : pathNames path ≠ [] := by
    intro top
    apply h.free
    rw [top]
    rfl
  rcases makeAlong_spec [] (pathNames path).dropLast t with ⟨t', along, _, made⟩ | ⟨_, blocked⟩
  · have free : t'.find (pathNames path) ≠ .directory := by
      rw [made.find_self]
      exact h.free
    refine ⟨t'.put (pathNames path) (.file content), ?_, entry_put h.file nonempty content⟩
    rw [store?_of_made along, write?_of_directory made.find_dropLast, h.file, if_neg (by simpa using free)]
  · exact (blocked h.way).elim

/-- Nothing is stored where no file can be written. -/
lemma writable_of_store {content : Text} (h : store? path content t = some t') : t.Writable path := by
  rcases makeAlong_spec [] (pathNames path).dropLast t with ⟨made, along, passable, beside⟩ | ⟨along, _⟩
  · rw [store?_of_made along, write?_of_directory beside.find_dropLast, beside.find_self] at h
    by_cases refused : namesDirectory path = true ∨ t.find (pathNames path) = .directory
    · rw [if_pos refused] at h
      cases h
    · obtain ⟨file, free⟩ := not_or.mp refused
      exact ⟨Bool.of_not_eq_true file, free, passable⟩
  · rw [store?, makeDirectories?, pathNames_parentPath, along] at h
    cases h

end FileTree
end FilterEditor.CommandLine
