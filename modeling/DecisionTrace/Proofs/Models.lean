import DecisionTrace.Search.Propagation
import Mathlib.Data.List.Perm.Subperm
import Mathlib.Order.Basic

/-!
# Models of a formula

One assignment lies below another when all its bindings are bindings of the other. What an
assignment makes true stays true above it, and what a clause leaves no choice about is settled for
every assignment above that satisfies the clause. These two facts carry everything that is said
later about propagation, search and replay.

A model is any assignment that satisfies the formula. It may leave variables free, and it may bind
names that the formula does not have.
-/

namespace DecisionTrace

/-! ## The order of assignments -/

namespace Assignment

/-- An assignment lies below another when the other has all its bindings. -/
instance : Preorder Assignment where
  le a b := ∀ n v, a.value? n = some v → b.value? n = some v
  le_refl _ _ _ h := h
  le_trans _ _ _ hab hbc n v h := hbc n v (hab n v h)

theorem value?_of_le {a b : Assignment} (h : a ≤ b) {n : String} {v : Bool}
    (hv : a.value? n = some v) : b.value? n = some v :=
  h n v hv

theorem binds_eq_false_iff {a : Assignment} {n : String} :
    a.binds n = false ↔ a.value? n = none := by
  simp [binds]

theorem binds_of_value? {a : Assignment} {n : String} {v : Bool} (h : a.value? n = some v) :
    a.binds n = true := by
  simp [binds, h]

@[simp]
theorem value?_empty (n : String) : (∅ : Assignment).value? n = none := by
  rw [value?_eq_lookup]
  rfl

theorem empty_le (a : Assignment) : ∅ ≤ a := by
  intro n v h
  simp at h

theorem le_extend (a : Assignment) (n : String) (v : Bool) : a ≤ a.extend n v := by
  intro m w h
  simp [h]

theorem value?_extend_self {a : Assignment} {n : String} (h : a.binds n = false) (v : Bool) :
    (a.extend n v).value? n = some v := by
  simp [binds_eq_false_iff.1 h]

/-- Above an extension lie the assignments above the shorter one that have the new binding. -/
theorem extend_le_iff {a m : Assignment} {n : String} {v : Bool} (h : a.binds n = false) :
    a.extend n v ≤ m ↔ a ≤ m ∧ m.value? n = some v := by
  constructor
  · intro hm
    exact ⟨le_trans (le_extend a n v) hm, hm n v (value?_extend_self h v)⟩
  · rintro ⟨ham, hn⟩ x w hx
    rw [value?_extend] at hx
    cases ha : a.value? x with
    | some u =>
        rw [ha, Option.some_or] at hx
        exact hx ▸ ham x u ha
    | none =>
        rw [ha, Option.none_or] at hx
        by_cases hxn : x = n
        · subst hxn
          rw [if_pos rfl] at hx
          exact hx ▸ hn
        · rw [if_neg hxn] at hx
          cases hx

/-! ## Assignments with the same bindings -/

/-- The same bindings, in whatever order. -/
def Agrees (a b : Assignment) : Prop :=
  ∀ n, a.value? n = b.value? n

theorem Agrees.symm {a b : Assignment} (h : a.Agrees b) : b.Agrees a :=
  fun n => (h n).symm

theorem Agrees.le {a b : Assignment} (h : a.Agrees b) : a ≤ b :=
  fun n _ hv => (h n).symm.trans hv

theorem agrees_of_le {a b : Assignment} (hab : a ≤ b) (hba : b ≤ a) : a.Agrees b := by
  intro n
  cases hb : b.value? n with
  | some v => exact hba n v hb
  | none =>
      cases ha : a.value? n with
      | none => rfl
      | some v =>
          rw [hab n v ha] at hb
          cases hb

theorem Agrees.binds_eq {a b : Assignment} (h : a.Agrees b) (n : String) :
    a.binds n = b.binds n := by
  rw [binds, binds, h n]

theorem Agrees.extend {a b : Assignment} (h : a.Agrees b) (n : String) (v : Bool) :
    (a.extend n v).Agrees (b.extend n v) := by
  intro m
  rw [value?_extend, value?_extend, h m]

theorem lookup_eq_some_iff_mem {κ ν : Type} [DecidableEq κ] {bs : List (κ × ν)}
    (hd : (bs.map Prod.fst).Nodup) {n : κ} {v : ν} : bs.lookup n = some v ↔ (n, v) ∈ bs := by
  induction bs with
  | nil => simp
  | cons b bs ih =>
      obtain ⟨k, w⟩ := b
      rw [List.map_cons, List.nodup_cons] at hd
      rw [List.lookup_cons, List.mem_cons, Prod.mk.injEq]
      by_cases h : n = k
      · subst h
        have hnot : (n, v) ∉ bs := fun hmem => hd.1 (List.mem_map.2 ⟨(n, v), hmem, rfl⟩)
        simp [hnot, eq_comm]
      · have hbeq : (n == k) = false := by simpa using h
        simp [hbeq, h, ih hd.2]

theorem mem_bindings_iff {a : Assignment} {n : String} {v : Bool} :
    (n, v) ∈ a.bindings ↔ a.value? n = some v := by
  rw [value?_eq_lookup, lookup_eq_some_iff_mem a.distinct]

theorem nodup_names (a : Assignment) : a.names.Nodup :=
  a.distinct

theorem sameMapping_iff {a b : Assignment} : a.sameMapping b = true ↔ a.Agrees b := by
  simp only [sameMapping, Bool.and_eq_true, beq_iff_eq, List.all_eq_true, Prod.forall,
    mem_bindings_iff]
  constructor
  · rintro ⟨hsize, hab⟩
    have hle : a ≤ b := hab
    have hsub : a.names ⊆ b.names := by
      intro n hn
      obtain ⟨v, hv⟩ := Option.isSome_iff_exists.1 (binds_iff_mem_names.2 hn)
      exact binds_iff_mem_names.1 (binds_of_value? (hab n v hv))
    have hperm : a.names.Perm b.names :=
      (List.subperm_of_subset a.nodup_names hsub).perm_of_length_le (by
        simp only [names, List.length_map]
        exact Nat.le_of_eq hsize.symm)
    apply agrees_of_le hle
    intro n v hv
    have hn : n ∈ a.names := hperm.mem_iff.2 (binds_iff_mem_names.1 (binds_of_value? hv))
    obtain ⟨w, hw⟩ := Option.isSome_iff_exists.1 (binds_iff_mem_names.2 hn)
    have hvw := hle n w hw
    rw [hv] at hvw
    rw [hw, hvw]
  · intro h
    have hperm : a.names.Perm b.names := by
      rw [List.perm_ext_iff_of_nodup a.nodup_names b.nodup_names]
      intro n
      rw [← binds_iff_mem_names, ← binds_iff_mem_names, h.binds_eq]
    refine ⟨?_, fun n v hv => h.le n v hv⟩
    simpa [names, size] using hperm.length_eq

end Assignment

/-! ## Literals and clauses -/

theorem Literal.evaluate_eq_true_iff {l : Literal} {a : Assignment} :
    l.evaluate a = some true ↔ a.value? l.name = some l.satisfyingValue := by
  simp [Literal.evaluate]

theorem Literal.eq_of_satisfyingValue {l k : Literal} (hname : l.name = k.name)
    (hvalue : l.satisfyingValue = k.satisfyingValue) : l = k := by
  obtain ⟨name, negated⟩ := l
  obtain rfl : name = k.name := hname
  obtain rfl : negated = k.negated := by simpa [satisfyingValue] using hvalue
  rfl

namespace Clause

/-- The clause with a first literal and further ones. -/
def ofCons (l : Literal) (ls : List Literal) : Clause :=
  ⟨l :: ls, List.cons_ne_nil l ls⟩

variable {c : Clause} {a b m : Assignment} {l : Literal}

theorem satisfiedBy_iff :
    c.satisfiedBy a = true ↔ ∃ l ∈ c.literals, a.value? l.name = some l.satisfyingValue := by
  simp only [satisfiedBy, List.any_eq_true, beq_iff_eq, Literal.evaluate_eq_true_iff]

@[simp]
theorem mem_unassigned : l ∈ c.unassigned a ↔ l ∈ c.literals ∧ a.binds l.name = false := by
  simp [unassigned]

/-- A satisfied clause stays satisfied when more is bound. -/
theorem satisfiedBy_mono (h : a ≤ b) (hs : c.satisfiedBy a = true) : c.satisfiedBy b = true := by
  obtain ⟨l, hl, hv⟩ := satisfiedBy_iff.1 hs
  exact satisfiedBy_iff.2 ⟨l, hl, h _ _ hv⟩

/-- In a clause with no true literal every bound literal is false. -/
theorem value?_of_not_satisfiedBy (hs : c.satisfiedBy a = false) (hl : l ∈ c.literals)
    (hb : a.binds l.name = true) : a.value? l.name = some l.negated := by
  obtain ⟨v, hv⟩ := Option.isSome_iff_exists.1 hb
  have hne : v ≠ l.satisfyingValue := by
    intro h
    have : c.satisfiedBy a = true := satisfiedBy_iff.2 ⟨l, hl, h ▸ hv⟩
    rw [hs] at this
    cases this
  have hvn : v = l.negated := by
    simpa [Literal.satisfyingValue] using hne
  rw [hv, hvn]

theorem status_eq_falsified_iff :
    c.status a = .falsified ↔ c.satisfiedBy a = false ∧ c.unassigned a = [] := by
  unfold status
  split
  · next h => simp [h]
  · next h => split <;> simp_all

theorem status_eq_unit_iff :
    c.status a = .unit l ↔ c.satisfiedBy a = false ∧ c.unassigned a = [l] := by
  unfold status
  split
  · next h => simp [h]
  · next h => split <;> simp_all

/-- A clause that decides nothing: some literal is true, or several occurrences are free. -/
def Idle (c : Clause) (a : Assignment) : Prop :=
  c.satisfiedBy a = true ∨ 1 < (c.unassigned a).length

theorem idle_iff_status : c.Idle a ↔ c.status a = .satisfied ∨ c.status a = .unresolved := by
  unfold Idle status
  split
  · next h => simp [h]
  · next h => split <;> simp_all

/-- A falsified clause holds nowhere above. -/
theorem not_satisfiedBy_of_falsified (h : c.status a = .falsified) (ha : a ≤ m) :
    c.satisfiedBy m = false := by
  obtain ⟨hs, hu⟩ := status_eq_falsified_iff.1 h
  rw [← Bool.not_eq_true, satisfiedBy_iff]
  rintro ⟨l, hl, hv⟩
  have hb : a.binds l.name = true := by
    by_contra hb
    have : l ∈ c.unassigned a := mem_unassigned.2 ⟨hl, by simpa using hb⟩
    simp [hu] at this
  have := ha _ _ (value?_of_not_satisfiedBy hs hl hb)
  rw [hv] at this
  simp [Literal.satisfyingValue] at this

/-- The literal of a unit clause is true wherever the clause holds above. -/
theorem value?_of_unit (h : c.status a = .unit l) (ha : a ≤ m) (hm : c.satisfiedBy m = true) :
    m.value? l.name = some l.satisfyingValue := by
  obtain ⟨hs, hu⟩ := status_eq_unit_iff.1 h
  obtain ⟨k, hk, hv⟩ := satisfiedBy_iff.1 hm
  by_cases hb : a.binds k.name = true
  · have := ha _ _ (value?_of_not_satisfiedBy hs hk hb)
    rw [hv] at this
    simp [Literal.satisfyingValue] at this
  · have hmem : k ∈ c.unassigned a := mem_unassigned.2 ⟨hk, by simpa using hb⟩
    rw [hu, List.mem_singleton] at hmem
    exact hmem ▸ hv

theorem unassigned_sublist (h : a ≤ b) : (c.unassigned b).Sublist (c.unassigned a) := by
  apply List.monotone_filter_right
  intro l hl
  simp only [Bool.not_eq_true'] at hl ⊢
  rw [Assignment.binds_eq_false_iff] at hl ⊢
  cases ha : a.value? l.name with
  | none => rfl
  | some v =>
      rw [h _ _ ha] at hl
      cases hl

/-- Above an assignment that falsifies a clause, the clause is not idle. -/
theorem not_idle_of_falsified (h : c.status a = .falsified) (hab : a ≤ b) : ¬ c.Idle b := by
  rintro (hs | hlen)
  · rw [not_satisfiedBy_of_falsified h hab] at hs
    cases hs
  · have hsub := unassigned_sublist (c := c) hab
    rw [(status_eq_falsified_iff.1 h).2] at hsub
    rw [List.sublist_nil.1 hsub] at hlen
    cases hlen

/-- Where a unit clause is idle further up, its literal has become true. -/
theorem value?_of_unit_of_idle (h : c.status a = .unit l) (hab : a ≤ b) (hi : c.Idle b) :
    b.value? l.name = some l.satisfyingValue := by
  rcases hi with hs | hlen
  · exact value?_of_unit h hab hs
  · have hle := (unassigned_sublist (c := c) hab).length_le
    rw [(status_eq_unit_iff.1 h).2, List.length_singleton] at hle
    omega

end Clause

/-! ## Formulas -/

namespace Formula

variable {f : Formula} {a b m : Assignment}

theorem satisfiedBy_iff : f.satisfiedBy a = true ↔ ∀ c ∈ f.clauses, c.satisfiedBy a = true := by
  simp [satisfiedBy]

theorem satisfiedBy_mono (h : a ≤ b) (hs : f.satisfiedBy a = true) : f.satisfiedBy b = true :=
  satisfiedBy_iff.2 fun c hc => c.satisfiedBy_mono h (satisfiedBy_iff.1 hs c hc)

/-- A falsified clause leaves no model above. -/
theorem satisfiedBy_of_falsified {c : Clause} (hc : c ∈ f.clauses) (h : c.status a = .falsified)
    (ha : a ≤ m) : f.satisfiedBy m = false := by
  by_contra hm
  have hcm := satisfiedBy_iff.1 (by simpa using hm) c hc
  rw [Clause.not_satisfiedBy_of_falsified h ha] at hcm
  cases hcm

theorem mem_names {n : String} : n ∈ f.names ↔ ∃ c ∈ f.clauses, ∃ l ∈ c.literals, l.name = n := by
  simp only [names, literals, mem_firstSeen, List.mem_map, List.mem_flatMap]
  constructor
  · rintro ⟨l, ⟨c, hc, hl⟩, hn⟩
    exact ⟨c, hc, l, hl, hn⟩
  · rintro ⟨c, hc, l, hl, hn⟩
    exact ⟨l, ⟨c, hc, hl⟩, hn⟩

/-- No clause leaves anything to bind, and none has failed. -/
def Settled (f : Formula) (a : Assignment) : Prop :=
  ∀ c ∈ f.clauses, c.Idle a

/-- A settled formula that is not satisfied has a free variable. -/
theorem exists_free_of_settled (hset : f.Settled a) (hs : f.satisfiedBy a = false) :
    ∃ n ∈ f.names, a.binds n = false := by
  have hc : ∃ c ∈ f.clauses, c.satisfiedBy a = false := by
    simpa [satisfiedBy] using hs
  obtain ⟨c, hc, hcs⟩ := hc
  rcases hset c hc with hsat | hlen
  · rw [hcs] at hsat
    cases hsat
  · obtain ⟨l, hl⟩ := List.exists_mem_of_length_pos (l := c.unassigned a) (by omega)
    obtain ⟨hlc, hfree⟩ := Clause.mem_unassigned.1 hl
    exact ⟨l.name, mem_names.2 ⟨c, hc, l, hlc, rfl⟩, hfree⟩

end Formula

end DecisionTrace
