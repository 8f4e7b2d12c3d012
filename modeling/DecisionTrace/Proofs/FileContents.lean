import DecisionTrace.Files.Tree
import DecisionTrace.Proofs.TextPieces
import Mathlib.Data.List.Basic

/-!
# What is in a file

A file that has been written is read back as it was written (`FileTree.readText_writeText`), and
writing to another name of the same directory does not touch it
(`FileTree.readText_writeText_sibling`).

Both rest on one description of where a path leads. The way it takes depends on its text alone
(`FileTree.location`); the tree only says whether there is a directory wherever the way goes on
(`FileTree.Leads`). Writing a file leaves all directories directories, so a path that leads
somewhere still leads there afterwards.
-/

namespace DecisionTrace

/-! ## Nodes below a node -/

namespace FileNode

variable {node new child : FileNode} {name other : String} {entries : List (String × FileNode)}
  {w location rest : List String}

theorem lookup_setEntry_self (name : String) (node : FileNode)
    (entries : List (String × FileNode)) :
    (setEntry name node entries).lookup name = some node := by
  induction entries with
  | nil => simp [setEntry]
  | cons entry entries ih =>
      obtain ⟨other, old⟩ := entry
      by_cases h : other = name
      · simp [setEntry, h]
      · rw [setEntry, if_neg h, List.lookup_cons, beq_false_of_ne (Ne.symm h)]
        exact ih

theorem lookup_setEntry_of_ne (h : other ≠ name) (node : FileNode)
    (entries : List (String × FileNode)) :
    (setEntry name node entries).lookup other = entries.lookup other := by
  induction entries with
  | nil => rw [setEntry, List.lookup_cons, beq_false_of_ne h]
  | cons entry entries ih =>
      obtain ⟨key, old⟩ := entry
      by_cases hkey : key = name
      · rw [setEntry, if_pos hkey, hkey, List.lookup_cons, List.lookup_cons, beq_false_of_ne h]
      · rw [setEntry, if_neg hkey, List.lookup_cons, List.lookup_cons, ih]

theorem child?_put_self (node new : FileNode) (name : String) (rest : List String) :
    (node.put new (name :: rest)).child? name =
      some (((node.child? name).getD (.directory [])).put new rest) :=
  lookup_setEntry_self ..

theorem child?_put_of_ne (h : other ≠ name) (node new : FileNode) (rest : List String) :
    (node.put new (name :: rest)).child? other = node.child? other :=
  lookup_setEntry_of_ne h ..

theorem below?_append (node : FileNode) (w rest : List String) :
    node.below? (w ++ rest) = (node.below? w).bind fun child => child.below? rest := by
  induction w generalizing node with
  | nil => rfl
  | cons name w ih =>
      rw [List.cons_append, below?, below?, Option.bind_assoc]
      simp only [ih]

/-- Nothing lies below a file or in an empty directory. -/
theorem below?_of_entries_eq_nil (h : node.entries = []) (hrest : rest ≠ []) :
    node.below? rest = none := by
  cases rest with
  | nil => exact absurd rfl hrest
  | cons name rest => rw [below?, child?, h]; rfl

theorem below?_put_append (node new : FileNode) (location rest : List String) :
    (node.put new location).below? (location ++ rest) = new.below? rest := by
  induction location generalizing node with
  | nil => rfl
  | cons name location ih => rw [List.cons_append, below?, child?_put_self, Option.bind_some, ih]

/-- On the way to what was put there are directories. -/
theorem exists_below?_put_of_ne_nil (node new : FileNode) (w : List String) (h : rest ≠ []) :
    ∃ entries, (node.put new (w ++ rest)).below? w = some (.directory entries) := by
  induction w generalizing node with
  | nil =>
      cases rest with
      | nil => exact absurd rfl h
      | cons name rest => exact ⟨_, rfl⟩
  | cons name w ih => rw [List.cons_append, below?, child?_put_self, Option.bind_some]; exact ih _

/-- What lies neither on the way to what was put nor below it stays as it was. -/
theorem below?_put_of_apart (hbelow : ¬ location <+: w) (habove : ¬ w <+: location) :
    (node.put new location).below? w = node.below? w := by
  induction location generalizing node w with
  | nil => exact absurd List.nil_prefix hbelow
  | cons name location ih =>
      cases w with
      | nil => exact absurd List.nil_prefix habove
      | cons other w =>
          by_cases h : other = name
          · subst h
            rw [List.prefix_cons_inj] at hbelow habove
            rw [below?, below?, child?_put_self, Option.bind_some, ih hbelow habove]
            cases node.child? other with
            | none =>
                -- the directory that is made for a missing name is empty before the put
                refine below?_of_entries_eq_nil rfl ?_
                rintro rfl
                exact habove List.nil_prefix
            | some child => rfl
          · rw [below?, below?, child?_put_of_ne h]

end FileNode

namespace FileTree

variable {t t' : FileTree} {node : FileNode} {entries : List (String × FileNode)}
  {w place way parts : List String} {part path text : String} {content : ByteArray}

/-! ## Nodes of a tree -/

/-- A directory that is there without being an entry of another: the working directory, one above
it, or the root. -/
def IsGiven (place : List String) : Prop :=
  isOutward place = true ∨ place = [rootName]

theorem node?_eq_some_iff :
    t.node? place = some node ↔
      t.top.below? place = some node ∨
        t.top.below? place = none ∧ IsGiven place ∧ node = .directory [] := by
  by_cases hgiven : IsGiven place
  · rw [node?, if_pos (by exact hgiven)]
    cases t.top.below? place with
    | none => simp [hgiven, eq_comm]
    | some old => simp
  · rw [node?, if_neg (by exact hgiven)]
    simp [hgiven]

/-- The entry of a directory is what its name leads to. -/
theorem node?_concat (h : t.node? w = some (.directory entries)) (hup : part ≠ upName)
    (hroot : part ≠ rootName) : t.node? (w ++ [part]) = entries.lookup part := by
  have hgiven : ¬ IsGiven (w ++ [part]) := by
    rw [IsGiven, isOutward, List.all_append, not_or]
    refine ⟨by simp [hup], ?_⟩
    cases w with
    | nil => simpa using hroot
    | cons name w => simp
  rw [node?, if_neg (by exact hgiven), FileNode.below?_append]
  rcases node?_eq_some_iff.1 h with hbelow | ⟨hbelow, -, hnode⟩
  · rw [hbelow, Option.bind_some, FileNode.below?, FileNode.child?, FileNode.entries]
    exact Option.bind_fun_some _
  · obtain rfl : entries = [] := by simpa using hnode
    rw [hbelow]
    rfl

theorem node?_put_self (t : FileTree) (place : List String) (node : FileNode) :
    (t.put place node).node? place = some node := by
  refine node?_eq_some_iff.2 (.inl ?_)
  have hput := FileNode.below?_put_append t.top node place []
  rwa [List.append_nil] at hput

theorem node?_put_of_apart (hbelow : ¬ place <+: w) (habove : ¬ w <+: place)
    (node : FileNode) : (t.put place node).node? w = t.node? w := by
  rw [node?, node?, put, FileNode.below?_put_of_apart hbelow habove]

/-- A file that takes the place of no directory leaves all directories directories. -/
theorem exists_directory_put (hplace : ∀ old, t.node? place ≠ some (.directory old))
    (hw : t.node? w = some (.directory entries)) (content : ByteArray) :
    ∃ entries', (t.put place (.file content)).node? w = some (.directory entries') := by
  simp only [node?_eq_some_iff, put]
  by_cases hbelow : place <+: w
  · obtain ⟨rest, rfl⟩ := hbelow
    have hrest : rest ≠ [] := by
      rintro rfl
      exact hplace entries (by rwa [List.append_nil] at hw)
    rcases node?_eq_some_iff.1 hw with hnode | ⟨-, hgiven, -⟩
    · -- a directory below a file would be needed
      rw [FileNode.below?_append, Option.bind_eq_some_iff] at hnode
      obtain ⟨old, hold, hnode⟩ := hnode
      cases old with
      | file old => rw [FileNode.below?_of_entries_eq_nil rfl hrest] at hnode; cases hnode
      | directory old => exact absurd (node?_eq_some_iff.2 (.inl hold)) (hplace old)
    · refine ⟨[], .inr ⟨?_, hgiven, rfl⟩⟩
      rw [FileNode.below?_put_append, FileNode.below?_of_entries_eq_nil rfl hrest]
  · by_cases habove : w <+: place
    · obtain ⟨rest, rfl⟩ := habove
      have hrest : rest ≠ [] := by
        rintro rfl
        exact hbelow ⟨[], by rw [List.append_nil, List.append_nil]⟩
      exact (FileNode.exists_below?_put_of_ne_nil t.top (.file content) w hrest).imp fun _ => .inl
    · refine ⟨entries, ?_⟩
      rw [FileNode.below?_put_of_apart hbelow habove]
      exact node?_eq_some_iff.1 hw

/-! ## Where a path leads -/

/-- The way after one more part of a path. -/
def turn (way : List String) (part : String) : List String :=
  if part = "" ∨ part = "." then way else if part = upName then above way else part :: way

/-- Whether the parts can be followed from the end of a way: there is a directory wherever it goes
on, and no name is too long. -/
def Passes (t : FileTree) (way : List String) : List String → Prop
  | [] => True
  | part :: rest =>
    (∃ entries, t.node? way.reverse = some (.directory entries)) ∧
      (part = "" ∨ part = "." ∨ part = upName ∨ part.utf8ByteSize ≤ maxNameBytes) ∧
      t.Passes (turn way part) rest

/-- What a location holds. -/
def arrival (t : FileTree) (place : List String) : FileTarget :=
  match t.node? place with
  | some node => .present place node
  | none => .free place

theorem follow_eq_ok_iff {found : FileTarget} (hparts : ∀ part ∈ parts, part ≠ rootName) :
    t.follow way (t.node? way.reverse) parts = .ok found ↔
      t.Passes way parts ∧ found = t.arrival (parts.foldl turn way).reverse := by
  induction parts generalizing way with
  | nil =>
      -- what the last part names need not be there
      rw [Passes, List.foldl_nil, arrival, true_and]
      cases t.node? way.reverse with
      | none => simp [follow, eq_comm]
      | some node => simp [follow, eq_comm]
  | cons part rest ih =>
      rw [List.forall_mem_cons] at hparts
      rw [Passes, List.foldl_cons]
      cases hhere : t.node? way.reverse with
      | none => simp [follow]
      | some node =>
          cases node with
          | file content => simp [follow]
          | directory entries =>
              simp only [follow, Option.some.injEq, FileNode.directory.injEq, exists_eq', true_and]
              by_cases hstay : part = "" ∨ part = "."
              · rw [if_pos hstay, ← hhere, ih hparts.2, turn, if_pos hstay]
                simp [← or_assoc, hstay]
              · rw [if_neg hstay]
                by_cases hup : part = upName
                · rw [if_pos hup, ih hparts.2, turn, if_neg hstay, if_pos hup]
                  simp [hup]
                · -- from here on the node that is carried along is the one of the longer way
                  have hchild : entries.lookup part = t.node? (part :: way).reverse := by
                    rw [List.reverse_cons, node?_concat hhere hup hparts.1]
                  rw [if_neg hup, turn, if_neg hstay, if_neg hup]
                  split
                  · next hlong => simp [hstay, hup, Nat.not_le.2 hlong]
                  · next hlong => rw [hchild, ih hparts.2]; simp [Nat.not_lt.1 hlong]

theorem Passes.mono (h : t.Passes way parts)
    (hmono : ∀ w entries, t.node? w = some (.directory entries) →
      ∃ entries', t'.node? w = some (.directory entries')) : t'.Passes way parts := by
  induction parts generalizing way with
  | nil => trivial
  | cons part rest ih =>
      obtain ⟨⟨entries, hentries⟩, hpart, hrest⟩ := h
      exact ⟨hmono _ _ hentries, hpart, ih hrest⟩

/-- The way on which a path starts. -/
def startOf (path : String) : List String :=
  if Path.rootOf path.toList = .workingDirectory then [] else [rootName]

/-- The location at the end of a path. -/
def location (path : String) : List String :=
  ((Path.parts path).foldl turn (startOf path)).reverse

/-- Whether a path leads somewhere, be it to a free name. -/
structure Leads (t : FileTree) (path : String) : Prop where
  noNull : path.contains '\x00' = false
  size_le : path.utf8ByteSize ≤ maxPathBytes
  ne_empty : path ≠ ""
  passes : t.Passes (startOf path) (Path.parts path)

theorem Leads.mono (h : t.Leads path)
    (hmono : ∀ w entries, t.node? w = some (.directory entries) →
      ∃ entries', t'.node? w = some (.directory entries')) : t'.Leads path :=
  { h with passes := h.passes.mono hmono }

theorem startOf_reverse (path : String) : (startOf path).reverse = startOf path := by
  rw [startOf]
  split <;> rfl

/-- No part of a path is the name of the root. -/
theorem ne_rootName_of_mem_parts (path : String) : ∀ part ∈ Path.parts path, part ≠ rootName := by
  rintro part hpart rfl
  obtain ⟨piece, hpiece, hname⟩ := List.mem_map.1 hpart
  have hslash : '/' ∈ piece := by
    rw [← String.toList_ofList (l := piece), hname]
    exact List.mem_singleton_self _
  exact absurd (Text.mem_of_mem_cut hpiece hslash).2 (by decide)

theorem target_eq_ok_iff {found : FileTarget} :
    t.target path = .ok found ↔ t.Leads path ∧ found = t.arrival (location path) := by
  have hfollow : ∀ found, t.follow (startOf path) (t.node? (startOf path)) (Path.parts path) =
      .ok found ↔ t.Passes (startOf path) (Path.parts path) ∧
        found = t.arrival (location path) := by
    intro found
    rw [location, ← follow_eq_ok_iff (ne_rootName_of_mem_parts path), startOf_reverse]
  rw [target]
  split
  · next hnull => exact iff_of_false (by simp) fun h => absurd h.1.noNull (by simp [hnull])
  · next hnull =>
      split
      · next hlong => exact iff_of_false (by simp) fun h => absurd h.1.size_le (by omega)
      · next hlong =>
          split
          · next hempty => exact iff_of_false (by simp) fun h => absurd hempty h.1.ne_empty
          · next hempty =>
              have hleads : t.Leads path ↔ t.Passes (startOf path) (Path.parts path) :=
                ⟨Leads.passes, fun h => ⟨by simpa using hnull, by omega, hempty, h⟩⟩
              rw [hleads, ← hfollow]
              have hstart : startOf path =
                  if Path.rootOf path.toList = .workingDirectory then [] else [rootName] := rfl
              simp only [← hstart]
              cases t.follow (startOf path) (t.node? (startOf path)) (Path.parts path) with
              | ok found => simp
              | error fault => simp

theorem not_leads_of_target {e : FileError} (h : t.target path = .error e) : ¬ t.Leads path := by
  intro hleads
  rw [target_eq_ok_iff.2 ⟨hleads, rfl⟩] at h
  cases h

/-- Bytes are read as the text that they are written from. -/
theorem fromUTF8?_eq_some_iff {content : ByteArray} :
    String.fromUTF8? content = some text ↔ content = text.toUTF8 := by
  rw [String.fromUTF8?]
  constructor
  · intro h
    split at h
    · cases h; rfl
    · cases h
  · rintro rfl
    exact dif_pos text.isValidUTF8

theorem readText_eq_ok_iff :
    t.readText path = .ok text ↔
      t.Leads path ∧ t.node? (location path) = some (.file text.toUTF8) := by
  rw [readText, readBytes]
  cases htarget : t.target path with
  | error e => simp [not_leads_of_target htarget]
  | ok found =>
      obtain ⟨hleads, rfl⟩ := target_eq_ok_iff.1 htarget
      rw [arrival]
      cases t.node? (location path) with
      | none => simp
      | some node =>
          cases node with
          | directory entries => simp
          | file content =>
              simp only [hleads, true_and, Option.some.injEq, FileNode.file.injEq,
                ← fromUTF8?_eq_some_iff]
              cases String.fromUTF8? content with
              | none => simp
              | some read => simp

theorem writeText_eq_ok_iff :
    t.writeText path text = .ok t' ↔ t.Leads path ∧
      (∀ entries, t.node? (location path) ≠ some (.directory entries)) ∧
      t' = t.put (location path) (.file text.toUTF8) := by
  rw [writeText]
  cases htarget : t.target path with
  | error e => simp [not_leads_of_target htarget]
  | ok found =>
      obtain ⟨hleads, rfl⟩ := target_eq_ok_iff.1 htarget
      rw [arrival]
      cases t.node? (location path) with
      | none => simp [hleads, eq_comm]
      | some node =>
          cases node with
          | file content => simp [hleads, eq_comm]
          | directory entries => simp

/-- What has been written is read back. -/
theorem readText_writeText (h : t.writeText path text = .ok t') : t'.readText path = .ok text := by
  obtain ⟨hleads, hnode, rfl⟩ := writeText_eq_ok_iff.1 h
  exact readText_eq_ok_iff.2
    ⟨hleads.mono fun _ _ hw => exists_directory_put hnode hw _, node?_put_self ..⟩

/-! ## Files of one directory -/

/-- A name that stays a name of its own behind any text: it has no slash and is longer than the
names with a meaning. -/
structure IsFileName (name : String) : Prop where
  noSlash : '/' ∉ name.toList
  long : 2 < name.length

theorem IsFileName.append_ne {name other : String} (h : IsFileName name) (hother : other.length ≤ 2)
    (last : String) : last ++ name ≠ other := by
  rintro rfl
  have hlong := h.long
  rw [String.length_append] at hother
  omega

/-- The root of a text is seen in its first three characters. -/
theorem rootOf_eq (cs : List Char) :
    Path.rootOf cs =
      if cs[0]? = some '/' then
        if cs[1]? = some '/' ∧ cs[2]? ≠ some '/' then .doubleSlash else .slash
      else .workingDirectory := by
  unfold Path.rootOf
  split
  · simp
  · next c rest => by_cases hc : c = '/' <;> simp [hc]
  · next rest hpair htriple =>
      -- one slash, and no second one: the patterns with two have been tried before
      rcases rest with - | ⟨c, - | ⟨d, rest⟩⟩
      · simp
      · have hc : c ≠ '/' := by
          rintro rfl
          exact hpair rfl
        simp [hc]
      · have hc : c ≠ '/' := by
          rintro rfl
          exact htriple d rest rfl
        simp [hc]
  · next hslash =>
      have hhead : cs[0]? ≠ some '/' := by
        intro hhead
        obtain ⟨rest, rfl⟩ := List.head?_eq_some_iff.1 (by rwa [List.head?_eq_getElem?])
        exact hslash rest rfl
      rw [if_neg hhead]

theorem exists_rootOf_append (pre : String) :
    ∃ root, ∀ name, IsFileName name → Path.rootOf (pre ++ name).toList = root := by
  refine ⟨Path.rootOf pre.toList, fun name hname => ?_⟩
  have hslash : ∀ k : Nat, (pre ++ name).toList[k]? = some '/' ↔ pre.toList[k]? = some '/' := by
    intro k
    rw [String.toList_append, List.getElem?_append]
    split
    · rfl
    · next hk =>
        refine iff_of_false (fun h => hname.noSlash (List.mem_of_getElem? h)) fun h => ?_
        exact hk (List.getElem?_eq_some_iff.1 h).1
  simp only [rootOf_eq, ne_eq, hslash]

theorem exists_parts_append (pre : String) :
    ∃ parts last, ∀ name, IsFileName name → Path.parts (pre ++ name) = parts ++ [last ++ name] := by
  obtain ⟨pieces, last, hcut⟩ := Text.exists_cut_append (· = '/') pre.toList
  refine ⟨pieces.map String.ofList, String.ofList last, fun name hname => ?_⟩
  have hpieces := hcut name.toList fun c hc =>
    decide_eq_false fun hslash => hname.noSlash (hslash ▸ hc)
  rw [Path.parts, String.toList_append, hpieces, List.map_append, List.map_singleton,
    String.ofList_append, String.ofList_toList]

/-- A name at the end of a path is the last of its location. -/
theorem exists_location_append (pre : String) :
    ∃ base last, ∀ name, IsFileName name → location (pre ++ name) = base ++ [last ++ name] := by
  obtain ⟨root, hroot⟩ := exists_rootOf_append pre
  obtain ⟨parts, last, hparts⟩ := exists_parts_append pre
  refine ⟨(parts.foldl turn (if root = .workingDirectory then [] else [rootName])).reverse, last,
    fun name hname => ?_⟩
  have hturn : ∀ way, turn way (last ++ name) = (last ++ name) :: way := by
    intro way
    rw [turn, if_neg, if_neg]
    · exact hname.append_ne (by decide) last
    · exact not_or.2 ⟨hname.append_ne (by decide) last, hname.append_ne (by decide) last⟩
  rw [location, hparts name hname, List.foldl_append, List.foldl_cons, List.foldl_nil, hturn,
    List.reverse_cons, startOf, hroot name hname]

/-- The text of a path ends with its last name. -/
theorem exists_text_concat (root : PathRoot) (names : List String) (last : String) :
    ∃ pre, ∀ name, (Path.mk root (names ++ [last ++ name])).text = pre ++ name := by
  have htext : ∀ name, (Path.mk root (names ++ [last ++ name])).text =
      root.text ++ "/".intercalate (names ++ [last ++ name]) := by
    intro name
    unfold Path.text
    split
    · next hnil => exact absurd hnil (List.append_ne_nil_of_right_ne_nil _ (List.cons_ne_nil _ _))
    · rfl
  by_cases hnames : names = []
  · refine ⟨root.text ++ last, fun name => ?_⟩
    rw [htext, hnames, List.nil_append, String.intercalate_singleton, String.append_assoc]
  · refine ⟨root.text ++ ("/".intercalate names ++ "/" ++ last), fun name => ?_⟩
    rw [htext, String.intercalate_append_of_ne_nil hnames (List.cons_ne_nil _ _),
      String.intercalate_singleton]
    simp only [String.append_assoc]

/-- Names behind one text, followed from one path, differ only at the end of what they spell. -/
theorem exists_text_join_parse (p : Path) (lead : String) :
    ∃ pre, ∀ name, IsFileName name → (p.join (Path.parse (lead ++ name))).text = pre ++ name := by
  obtain ⟨root, hroot⟩ := exists_rootOf_append lead
  obtain ⟨parts, last, hparts⟩ := exists_parts_append lead
  have hparse : ∀ name, IsFileName name → Path.parse (lead ++ name) =
      ⟨root, (parts.filter fun part => part ≠ "" ∧ part ≠ ".") ++ [last ++ name]⟩ := by
    intro name hname
    have hkept : last ++ name ≠ "" ∧ last ++ name ≠ "." :=
      ⟨hname.append_ne (by decide) last, hname.append_ne (by decide) last⟩
    rw [Path.parse, hroot name hname, hparts name hname, List.filter_append,
      List.filter_singleton, decide_eq_true hkept]
    rfl
  generalize parts.filter _ = names at hparse
  by_cases habsolute : root = .workingDirectory
  · obtain ⟨pre, hpre⟩ := exists_text_concat p.root (p.names ++ names) last
    refine ⟨pre, fun name hname => ?_⟩
    rw [hparse name hname, Path.join, if_neg (by simp [Path.isAbsolute, habsolute]), ← hpre,
      List.append_assoc]
  · obtain ⟨pre, hpre⟩ := exists_text_concat root names last
    refine ⟨pre, fun name hname => ?_⟩
    rw [hparse name hname, Path.join, if_pos (by simp [Path.isAbsolute, habsolute]), hpre]

/-- Writing to a name of a directory leaves the other names of the directory alone. -/
theorem readText_writeText_sibling {pre name other old : String} (hname : IsFileName name)
    (hother : IsFileName other) (hne : name ≠ other)
    (h : t.writeText (pre ++ name) text = .ok t') (hold : t.readText (pre ++ other) = .ok old) :
    t'.readText (pre ++ other) = .ok old := by
  obtain ⟨base, last, hlocation⟩ := exists_location_append pre
  obtain ⟨-, hnode, rfl⟩ := writeText_eq_ok_iff.1 h
  obtain ⟨hleads, hfile⟩ := readText_eq_ok_iff.1 hold
  have hapart : ∀ a b : String, a ≠ b → ¬ base ++ [last ++ a] <+: base ++ [last ++ b] := by
    intro a b hab hprefix
    rw [List.prefix_append_right_inj] at hprefix
    have hlast := hprefix.eq_of_length rfl
    rw [List.singleton_inj, String.append_right_inj] at hlast
    exact hab hlast
  refine readText_eq_ok_iff.2 ⟨hleads.mono fun _ _ hw => exists_directory_put hnode hw _, ?_⟩
  rw [node?_put_of_apart, hfile]
  · rw [hlocation name hname, hlocation other hother]
    exact hapart _ _ hne
  · rw [hlocation name hname, hlocation other hother]
    exact hapart _ _ hne.symm

end FileTree

end DecisionTrace
