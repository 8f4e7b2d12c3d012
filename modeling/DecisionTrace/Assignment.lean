import DecisionTrace.Text.Quoted
import Std.Data.ExtTreeMap

/-!
# Partial assignments

An assignment binds some variable names to truth values and remembers the order of binding. Names
are bound at most once, which the type carries. An assignment is a value: extending it leaves the
shorter one as it was, so two branches of a search that start from one snapshot cannot observe
each other.

Names are looked up in a table that is kept beside the list of bindings. The table holds the same
bindings, which the type carries too, so the list alone makes an assignment what it is
(`eq_of_bindings`) and every statement about values is one about the list (`value?_eq_lookup`).
-/

namespace DecisionTrace

/-- A partial map from names to truth values, listed in the order of binding. -/
structure Assignment where
  bindings : List (String × Bool)
  distinct : (bindings.map Prod.fst).Nodup
  /-- The bindings arranged for lookups. -/
  table : Std.ExtTreeMap String Bool
  table_eq : ∀ name : String, table[name]? = bindings.lookup name

/-- The attempt to bind a bound name to the other value. -/
structure BindConflict where
  name : String
  current : Bool
  requested : Bool
deriving DecidableEq, Repr

/-- The message of a conflict of bindings. -/
def BindConflict.message (e : BindConflict) : String :=
  "Variable " ++ e.name ++ " is already bound to " ++ Text.capitalBool e.current ++
    ", cannot bind to " ++ Text.capitalBool e.requested

namespace Assignment

/-- Assignments with the same bindings in the same order are equal. -/
theorem eq_of_bindings {a b : Assignment} (h : a.bindings = b.bindings) : a = b := by
  obtain ⟨as, ad, ta, ha⟩ := a
  obtain ⟨bs, bd, tb, hb⟩ := b
  obtain rfl : as = bs := h
  obtain rfl : ta = tb := Std.ExtTreeMap.ext_getElem? fun name => (ha name).trans (hb name).symm
  rfl

instance : DecidableEq Assignment := fun a b =>
  decidable_of_iff (a.bindings = b.bindings) ⟨eq_of_bindings, fun h => h ▸ rfl⟩

/-- The table of a list of bindings; of two with one name the first counts. -/
def tableOf : List (String × Bool) → Std.ExtTreeMap String Bool
  | [] => ∅
  | b :: bs => (tableOf bs).insert b.1 b.2

theorem getElem?_tableOf (bs : List (String × Bool)) (name : String) :
    (tableOf bs)[name]? = bs.lookup name := by
  induction bs with
  | nil => simp [tableOf]
  | cons b bs ih =>
    obtain ⟨k, v⟩ := b
    by_cases h : name = k
    · subst h; simp [tableOf]
    · have hk : (name == k) = false := by simpa using h
      simp [tableOf, List.lookup_cons, Std.ExtTreeMap.getElem?_insert, hk, Ne.symm h, ih]

/-- The assignment with given bindings. -/
def ofBindings (bs : List (String × Bool)) (h : (bs.map Prod.fst).Nodup) : Assignment :=
  ⟨bs, h, tableOf bs, getElem?_tableOf bs⟩

/-- The assignment that binds nothing. -/
def empty : Assignment := ofBindings [] List.nodup_nil

instance : EmptyCollection Assignment := ⟨empty⟩

/-- The bound names, in the order of binding. -/
def names (a : Assignment) : List String :=
  a.bindings.map Prod.fst

/-- The number of bound names. -/
def size (a : Assignment) : Nat :=
  a.bindings.length

/-- The value that a name is bound to. -/
def value? (a : Assignment) (name : String) : Option Bool :=
  a.table[name]?

theorem value?_eq_lookup (a : Assignment) (name : String) :
    a.value? name = a.bindings.lookup name :=
  a.table_eq name

/-- Whether a name is bound. -/
def binds (a : Assignment) (name : String) : Bool :=
  (a.value? name).isSome

theorem lookup_isSome_iff {name : String} {bs : List (String × Bool)} :
    (bs.lookup name).isSome = true ↔ name ∈ bs.map Prod.fst := by
  induction bs with
  | nil => simp
  | cons b bs ih =>
    obtain ⟨k, v⟩ := b
    by_cases h : name = k
    · subst h; simp
    · have hk : (name == k) = false := by simpa using h
      simp [List.lookup_cons, hk, ih, h]

/-- A name is bound exactly when it is among the bound names. -/
theorem binds_iff_mem_names {a : Assignment} {name : String} :
    a.binds name = true ↔ name ∈ a.names := by
  rw [binds, value?_eq_lookup]
  exact lookup_isSome_iff

theorem nodup_append_singleton {name : String} {value : Bool} {bs : List (String × Bool)}
    (hd : (bs.map Prod.fst).Nodup) (hn : name ∉ bs.map Prod.fst) :
    ((bs ++ [(name, value)]).map Prod.fst).Nodup := by
  rw [List.map_append, List.nodup_append]
  refine ⟨hd, by simp, ?_⟩
  intro x hx y hy
  simp only [List.map_cons, List.map_nil, List.mem_singleton] at hy
  subst hy
  exact fun h => hn (h ▸ hx)

theorem lookup_append_singleton (bs : List (String × Bool)) (name : String) (value : Bool)
    (m : String) :
    (bs ++ [(name, value)]).lookup m =
      (bs.lookup m).or (if m = name then some value else none) := by
  induction bs with
  | nil =>
    by_cases hm : m = name
    · subst hm; simp
    · have : (m == name) = false := by simpa using hm
      simp [List.lookup_cons, this, hm]
  | cons b bs ih =>
    obtain ⟨k, w⟩ := b
    by_cases hk : m = k
    · subst hk; simp
    · have : (m == k) = false := by simpa using hk
      simp [List.lookup_cons, this, ih]

/-- The assignment with a fresh name bound after all others; a bound name keeps its value. -/
def extend (a : Assignment) (name : String) (value : Bool) : Assignment :=
  if h : a.binds name = true then a
  else
    { bindings := a.bindings ++ [(name, value)]
      distinct := nodup_append_singleton a.distinct fun hm => h (binds_iff_mem_names.2 hm)
      table := a.table.insert name value
      table_eq := fun m => by
        have hfree : a.bindings.lookup name = none := by
          rw [← value?_eq_lookup]
          simpa [binds] using h
        rw [lookup_append_singleton, Std.ExtTreeMap.getElem?_insert, a.table_eq]
        by_cases hm : m = name
        · subst hm; simp [hfree]
        · simp [hm, Ne.symm hm] }

/-- The bindings with the value of one name replaced. -/
def replace (name : String) (value : Bool) (bs : List (String × Bool)) : List (String × Bool) :=
  bs.map fun b => if b.1 = name then (name, value) else b

theorem map_fst_replace (name : String) (value : Bool) (bs : List (String × Bool)) :
    (replace name value bs).map Prod.fst = bs.map Prod.fst := by
  induction bs with
  | nil => rfl
  | cons b bs ih =>
    simp only [replace, List.map_cons] at ih ⊢
    rw [ih]
    by_cases h : b.1 = name <;> simp [h]

/-- The assignment with a name set to a value: a bound name keeps its place and takes the new
value, a fresh one is bound after all others. -/
def set (a : Assignment) (name : String) (value : Bool) : Assignment :=
  if a.binds name then
    ofBindings (replace name value a.bindings) (by rw [map_fst_replace]; exact a.distinct)
  else a.extend name value

/-- The assignment with a name bound to a value. Binding a name to the value it has changes
nothing; binding it to the other value is refused. -/
def bind (a : Assignment) (name : String) (value : Bool) : Except BindConflict Assignment :=
  match a.value? name with
  | some current => if current = value then .ok a else .error ⟨name, current, value⟩
  | none => .ok (a.extend name value)

/-- The assignment that a list of pairs describes; of two pairs with one name the first gives the
place and the last the value. -/
def ofPairs (pairs : List (String × Bool)) : Assignment :=
  pairs.foldl (fun a p => a.set p.1 p.2) empty

/-- Whether two assignments bind the same names to the same values, in whatever order. -/
def sameMapping (a b : Assignment) : Bool :=
  a.size == b.size && a.bindings.all fun p => b.value? p.1 == some p.2

/-- The bindings as a text, such as `A = true, B = false`. -/
def render (a : Assignment) : String :=
  ", ".intercalate (a.bindings.map fun p => p.1 ++ " = " ++ Text.lowerBool p.2)

/-- The assignment as it shows itself when inspected. -/
def inspect (a : Assignment) : String :=
  "Assignment(" ++
    ", ".intercalate (a.bindings.map fun p => p.1 ++ "=" ++ Text.capitalBool p.2) ++ ")"

end Assignment

end DecisionTrace
