import TypeInventory.Proofs.Output.Sessions

set_option relaxedAutoImplicit false
set_option autoImplicit false

/-!
# Names behind directories

A path is read component by component: a slash in front stands for the root, two dots lead upwards,
empty parts and single dots are passed over, and all other parts are names. A plain name that is
joined to the path of a directory adds itself as the last component and changes none of the others,
and in a tree of files it leads to an entry of that directory.

## Main definitions

* `Path.Component`, `Path.components` — what a path is made of.
* `Path.IsPlainName` — texts that are names and nothing else.
* `FileTree.directoryAt?` — the directory at the end of a path.
* `FileTree.baseDirectory?` — the directory in which a path continues another one.

## Main results

* `Path.splitParts_append_slash` — a text is split at each of its slashes.
* `Path.components_join` — a plain name is one more component.
* `FileTree.follow_append_name` — it leads to an entry of the directory in front of it.
* `FileTree.target?_join` — so it is written into that directory, if it can be written at all.
-/

namespace TypeInventory

namespace Path

/-! ## Components -/

/-- What a path is made of. -/
inductive Component where
  /-- The root of all directories. -/
  | root
  /-- The directory at which paths start. It counts only in front. -/
  | here
  /-- The directory around the one so far. -/
  | up
  /-- What is in the directory so far under a name. -/
  | name (text : String)
deriving DecidableEq, Repr

/-- The component that a part of a path stands for, if it stands for any. -/
def Component.ofPart? (part : String) : Option Component :=
  if isIdle part then none else if part = ".." then some .up else some (.name part)

/-- The component that only the start of a path stands for. -/
def startComponents (path : String) : List Component :=
  if isAbsolute path then [.root] else if (parts path).head? = some "." then [.here] else []

/-- The components of a path. -/
def components (path : String) : List Component :=
  startComponents path ++ (parts path).filterMap Component.ofPart?

/-- Two dots in the middle count, single dots and empty parts do not. -/
example : components "./a/../b//./c/" = [.here, .name "a", .up, .name "b", .name "c"] := by
  decide +kernel

/-- A text that is a name and nothing else: it has no slash, and it neither changes nothing nor
leads upwards. -/
structure IsPlainName (text : String) : Prop where
  /-- It is one part. -/
  slash_notMem : '/' ∉ text.toList
  /-- It is neither empty nor a dot. -/
  not_idle : isIdle text = false
  /-- It is not two dots. -/
  ne_up : text ≠ ".."

namespace IsPlainName

variable {text : String} (h : IsPlainName text)
include h

lemma ne_empty : text ≠ "" := by
  rintro rfl
  exact absurd h.not_idle (by decide)

lemma ne_dot : text ≠ "." := by
  rintro rfl
  exact absurd h.not_idle (by decide)

lemma not_isAbsolute : isAbsolute text = false := by
  rw [isAbsolute, beq_eq_false_iff_ne]
  exact fun hhead => h.slash_notMem (List.mem_of_head? hhead)

lemma parts_eq : parts text = [text] := by
  rw [parts, splitParts_of_notMem _ h.slash_notMem, List.map_singleton, String.ofList_toList]

lemma ofPart? : Component.ofPart? text = some (.name text) := by
  rw [Component.ofPart?, h.not_idle, if_neg Bool.false_ne_true, if_neg h.ne_up]

/-- It is one component. -/
lemma components_eq : components text = [.name text] := by
  have hhead : (parts text).head? ≠ some "." := by
    rw [h.parts_eq]
    exact fun hdot => h.ne_dot (Option.some.inj hdot)
  rw [components, startComponents, h.not_isAbsolute, if_neg Bool.false_ne_true, if_neg hhead,
    h.parts_eq]
  exact List.filterMap_cons_some h.ofPart?

end IsPlainName

/-! ## Joining -/

/-- A text has a part, even if it is empty. -/
lemma splitParts_ne_nil (cs : List Char) : splitParts cs ≠ [] := by
  induction cs with
  | nil => exact List.cons_ne_nil _ _
  | cons c cs ih =>
    rw [splitParts_cons]
    unfold addToParts
    split_ifs
    · exact List.cons_ne_nil _ _
    · cases splitParts cs <;> exact List.cons_ne_nil _ _

/-- **A text is split at each of its slashes.** -/
lemma splitParts_append_slash (cs ds : List Char) :
    splitParts (cs ++ '/' :: ds) = splitParts cs ++ splitParts ds := by
  induction cs with
  | nil => rfl
  | cons c cs ih =>
    rw [List.cons_append, splitParts_cons, splitParts_cons, ih]
    unfold addToParts
    split_ifs
    · rfl
    · obtain ⟨part, parts, hparts⟩ := List.exists_cons_of_ne_nil (splitParts_ne_nil cs)
      rw [hparts]
      rfl

variable {base name : String}

/-- A slash is put between a path and a plain name, unless the path ends in one. -/
lemma join_eq (hbase : base ≠ "") (hname : IsPlainName name) :
    join base name =
      if base.toList.getLast? == some '/' then base ++ name else base ++ "/" ++ name := by
  have hempty : base.isEmpty = false :=
    Bool.eq_false_iff.mpr fun h => hbase (String.isEmpty_iff.mp h)
  rw [join, hname.not_isAbsolute, hempty, Bool.or_false, if_neg Bool.false_ne_true]

/-- What comes of joining a plain name to a path that is not empty: the name is the last part. In
front of it are the parts of the path; if the path ends in a slash, the last of them, which is
empty, is left out. -/
lemma parts_join (hbase : base ≠ "") (hname : IsPlainName name) :
    ∃ front, front ≠ [] ∧ parts (join base name) = front ++ [name] ∧
      (parts base = front ∨ parts base = front ++ [""]) := by
  have hne : ∀ cs, (splitParts cs).map String.ofList ≠ [] :=
    fun cs h => splitParts_ne_nil cs (List.map_eq_nil_iff.mp h)
  have hslash : ∀ cs, (splitParts (cs ++ '/' :: name.toList)).map String.ofList =
      (splitParts cs).map String.ofList ++ [name] := by
    intro cs
    rw [splitParts_append_slash, List.map_append]
    exact congrArg _ hname.parts_eq
  rw [join_eq hbase hname]
  split_ifs with hlast
  · obtain ⟨front, hfront⟩ := List.getLast?_eq_some_iff.mp (eq_of_beq hlast)
    refine ⟨(splitParts front).map String.ofList, hne front, ?_, .inr ?_⟩
    · rw [parts, String.toList_append, hfront, List.append_assoc]
      exact hslash front
    · rw [parts, hfront, splitParts_append_slash, List.map_append]
      rfl
  · refine ⟨parts base, hne base.toList, ?_, .inl rfl⟩
    rw [parts, String.toList_append, String.toList_append, List.append_assoc]
    exact hslash base.toList

/-- A joined path starts with the path in front. -/
lemma exists_join_eq_append (hbase : base ≠ "") (hname : IsPlainName name) :
    ∃ rest, join base name = base ++ rest := by
  rw [join_eq hbase hname]
  split_ifs
  · exact ⟨name, rfl⟩
  · exact ⟨"/" ++ name, String.append_assoc⟩

/-- A joined path starts at the root if the path in front does. -/
lemma isAbsolute_join (hbase : base ≠ "") (hname : IsPlainName name) :
    isAbsolute (join base name) = isAbsolute base := by
  obtain ⟨rest, hrest⟩ := exists_join_eq_append hbase hname
  obtain ⟨c, cs, hcs⟩ := List.exists_cons_of_ne_nil
    (show base.toList ≠ [] from fun h => hbase (String.toList_eq_nil_iff.mp h))
  rw [hrest, isAbsolute, isAbsolute, String.toList_append, hcs]
  rfl

/-- A plain name that is joined to the empty path stays alone. -/
lemma join_empty (name : String) : join "" name = name := by
  simp [join]

/-- **A plain name is one more component** of the path that it is joined to. -/
lemma components_join (base : String) (hname : IsPlainName name) :
    components (join base name) = components base ++ [.name name] := by
  by_cases hbase : base = ""
  · subst hbase
    rw [join_empty, hname.components_eq]
    rfl
  · obtain ⟨front, hne, hjoin, hfront⟩ := parts_join hbase hname
    have hhead : (parts (join base name)).head? = (parts base).head? := by
      obtain ⟨part, rest, rfl⟩ := List.exists_cons_of_ne_nil hne
      rcases hfront with hfront | hfront <;> rw [hjoin, hfront] <;> rfl
    have hparts : (parts base).filterMap Component.ofPart? = front.filterMap Component.ofPart? := by
      rcases hfront with hfront | hfront
      · rw [hfront]
      · rw [hfront, List.filterMap_append]
        exact List.append_nil _
    rw [components, components, startComponents, isAbsolute_join hbase hname, hhead,
      ← startComponents, hjoin, List.filterMap_append, hparts, ← List.append_assoc]
    exact congrArg _ (List.filterMap_cons_some hname.ofPart?)

/-- Different plain names make different paths. -/
lemma join_inj {name' : String} (hname : IsPlainName name) (hname' : IsPlainName name') :
    join base name = join base name' ↔ name = name' := by
  rw [join, join, hname.not_isAbsolute, hname'.not_isAbsolute]
  split_ifs
  · exact Iff.rfl
  · exact String.append_right_inj base
  · exact String.append_right_inj (base ++ "/")

end Path

/-! ## In a tree of files -/

namespace FileTree

variable {tree : FileTree} {name : String}

/-- The directory at the end of a path, if there is one. -/
def directoryAt? (tree : FileTree) : Destination → Option ℕ
  | .directory number => some number
  | .entry place _ =>
    if nameLimit < place.name.utf8ByteSize then none else tree.directories[place]?

/-- A path is followed from the root or from the start, unless it is empty, too long or has a
character that no path has. -/
lemma locate_eq_follow {path : String} (hnul : '\x00' ∉ path.toList) (hempty : path ≠ "")
    (hlength : path.utf8ByteSize ≤ pathLimit) :
    tree.locate path =
      tree.follow (if Path.isAbsolute path then 0 else tree.start) (Path.parts path) := by
  rw [locate, if_neg (by rwa [List.contains_iff_mem]),
    if_neg fun h => hempty (String.isEmpty_iff.mp h), if_neg (by omega)]

/-- Only such paths lead somewhere. -/
lemma locate_eq_ok_iff {path : String} {destination : Destination} :
    tree.locate path = .ok destination ↔
      '\x00' ∉ path.toList ∧ path ≠ "" ∧ path.utf8ByteSize ≤ pathLimit ∧
        tree.follow (if Path.isAbsolute path then 0 else tree.start) (Path.parts path) =
          .ok destination := by
  constructor
  · intro h
    have hnul : '\x00' ∉ path.toList := by
      intro hnul
      rw [locate, if_pos (List.contains_iff_mem.mpr hnul)] at h
      cases h
    have hempty : path ≠ "" := by
      rintro rfl
      cases h
    have hlength : path.utf8ByteSize ≤ pathLimit := by
      by_contra hlength
      rw [locate, if_neg (by rwa [List.contains_iff_mem]),
        if_neg fun h => hempty (String.isEmpty_iff.mp h), if_pos (by omega)] at h
      cases h
    exact ⟨hnul, hempty, hlength, (locate_eq_follow hnul hempty hlength).symm.trans h⟩
  · rintro ⟨hnul, hempty, hlength, hfollow⟩
    exact (locate_eq_follow hnul hempty hlength).trans hfollow

/-- A path leads to the directory at its end. -/
lemma directory?_eq (tree : FileTree) (path : String) :
    tree.directory? path = (tree.locate path).toOption.bind tree.directoryAt? := by
  unfold directory? find
  cases tree.locate path with
  | error e => rfl
  | ok destination =>
    cases destination with
    | directory number => rfl
    | entry place asksDirectory =>
      simp only [bind, Except.bind, Except.toOption, Option.bind_some, directoryAt?]
      by_cases hlong : nameLimit < place.name.utf8ByteSize
      · rw [if_pos hlong, if_pos hlong]
      · rw [if_neg hlong, if_neg hlong]
        cases tree.directories[place]? with
        | some number => rfl
        | none => cases tree.content? place <;> cases asksDirectory <;> rfl

/-- Empty parts lead nowhere else. -/
lemma follow_of_all_isEmpty {parts : List String} (h : parts.all String.isEmpty = true)
    (directory : ℕ) : tree.follow directory parts = .ok (.directory directory) := by
  induction parts with
  | nil => rfl
  | cons part parts ih =>
    rw [List.all_cons, Bool.and_eq_true] at h
    have hidle : Path.isIdle part = true := by rw [Path.isIdle, h.1, Bool.true_or]
    rw [follow, if_pos hidle, ih h.2]

/-- A plain name leads to an entry of the directory from which it is followed. -/
lemma follow_singleton (hname : Path.IsPlainName name) (directory : ℕ) :
    tree.follow directory [name] = .ok (.entry ⟨directory, name⟩ false) := by
  rw [follow, hname.not_idle, if_neg Bool.false_ne_true, if_neg hname.ne_up]
  rfl

/-- **A plain name leads to an entry** of the directory that the parts in front of it lead to.

**Proof sketch.** By induction on the parts. A part that stands at the end of a path need not exist,
but in front of a name it has to be a directory. -/
lemma follow_append_name (hname : Path.IsPlainName name) (directory : ℕ) (parts : List String) :
    (tree.follow directory (parts ++ [name])).toOption =
      ((tree.follow directory parts).toOption.bind tree.directoryAt?).map
        fun inner => .entry ⟨inner, name⟩ false := by
  induction parts generalizing directory with
  | nil =>
    rw [List.nil_append, follow_singleton hname]
    rfl
  | cons part parts ih =>
    have hall : (parts ++ [name]).all String.isEmpty = false := by
      have hempty : name.isEmpty = false :=
        Bool.eq_false_iff.mpr fun h => hname.ne_empty (String.isEmpty_iff.mp h)
      rw [List.all_append, List.all_cons, hempty, Bool.false_and, Bool.and_false]
    rw [List.cons_append, follow, follow, hall, if_neg Bool.false_ne_true]
    by_cases hidle : Path.isIdle part
    · rw [if_pos hidle, if_pos hidle]
      exact ih directory
    rw [if_neg hidle, if_neg hidle]
    by_cases hup : part = ".."
    · rw [if_pos hup, if_pos hup]
      exact ih (tree.around directory)
    rw [if_neg hup, if_neg hup]
    by_cases hlast : parts.all String.isEmpty
    · rw [if_pos hlast]
      by_cases hlong : nameLimit < part.utf8ByteSize
      · simp [Except.toOption, directoryAt?, hlong]
      · simp only [Except.toOption, Option.bind_some, directoryAt?, if_neg hlong]
        cases tree.directories[Place.mk directory part]? with
        | none => rfl
        | some inner =>
          have hstay := ih inner
          rw [follow_of_all_isEmpty hlast] at hstay
          exact hstay
    · rw [if_neg hlast]
      by_cases hlong : nameLimit < part.utf8ByteSize
      · rw [if_pos hlong, if_pos hlong]
        rfl
      · rw [if_neg hlong, if_neg hlong]
        cases tree.directories[Place.mk directory part]? with
        | none => rfl
        | some inner => exact ih inner

/-- A slash at the end of a path leads to no other directory. -/
lemma directoryAt?_follow_append_empty (directory : ℕ) (parts : List String) :
    (tree.follow directory (parts ++ [""])).toOption.bind tree.directoryAt? =
      (tree.follow directory parts).toOption.bind tree.directoryAt? := by
  induction parts generalizing directory with
  | nil => rfl
  | cons part parts ih =>
    have hall : (parts ++ [""]).all String.isEmpty = parts.all String.isEmpty := by
      rw [List.all_append]
      exact Bool.and_true _
    rw [List.cons_append, follow, follow, hall]
    by_cases hidle : Path.isIdle part
    · rw [if_pos hidle, if_pos hidle]
      exact ih directory
    rw [if_neg hidle, if_neg hidle]
    by_cases hup : part = ".."
    · rw [if_pos hup, if_pos hup]
      exact ih (tree.around directory)
    rw [if_neg hup, if_neg hup]
    by_cases hlast : parts.all String.isEmpty
    · rw [if_pos hlast, if_pos hlast]
      rfl
    rw [if_neg hlast, if_neg hlast]
    by_cases hlong : nameLimit < part.utf8ByteSize
    · rw [if_pos hlong, if_pos hlong]
    · rw [if_neg hlong, if_neg hlong]
      cases tree.directories[Place.mk directory part]? with
      | none => rfl
      | some inner => exact ih inner

/-- The directory in which a path continues another one: the one at which paths start if the other
one is empty, or else the one that it leads to. -/
def baseDirectory? (tree : FileTree) (base : String) : Option ℕ :=
  if base = "" then some tree.start else tree.directory? base

/-- **What is written under a plain name is written into its directory**, if it can be written at
all. -/
lemma target?_join {base : String} (hname : Path.IsPlainName name) {place : Place}
    (h : tree.target? (Path.join base name) = some place) :
    tree.baseDirectory? base = some place.directory ∧ place.name = name := by
  obtain ⟨hnul, hempty, hlength, hfollow⟩ := locate_eq_ok_iff.mp (target?_eq_some_iff.mp h).1
  by_cases hbase : base = ""
  · subst hbase
    rw [Path.join_empty, hname.not_isAbsolute, hname.parts_eq] at hfollow
    obtain rfl : Place.mk tree.start name = place :=
      (Destination.entry.inj (Except.ok.inj ((follow_singleton hname _).symm.trans hfollow))).1
    exact ⟨if_pos rfl, rfl⟩
  · obtain ⟨front, -, hjoin, hfront⟩ := Path.parts_join hbase hname
    obtain ⟨rest, hrest⟩ := Path.exists_join_eq_append hbase hname
    rw [Path.isAbsolute_join hbase hname, hjoin] at hfollow
    have hinner : (tree.follow _ (front ++ [name])).toOption = _ :=
      follow_append_name hname (if Path.isAbsolute base then 0 else tree.start) front
    rw [hfollow] at hinner
    obtain ⟨inner, hfound, hplace⟩ := Option.map_eq_some_iff.mp hinner.symm
    obtain rfl := (Destination.entry.inj hplace).1
    refine ⟨?_, rfl⟩
    have hlocate : tree.locate base =
        tree.follow (if Path.isAbsolute base then 0 else tree.start) (Path.parts base) :=
      locate_eq_follow (by rw [hrest] at hnul; simp_all) hbase
        (by rw [hrest, String.utf8ByteSize_append] at hlength; omega)
    rw [baseDirectory?, if_neg hbase, directory?_eq, hlocate]
    rcases hfront with hfront | hfront
    · rw [hfront]
      exact hfound
    · rw [hfront]
      exact (directoryAt?_follow_append_empty _ _).trans hfound

end FileTree

end TypeInventory
