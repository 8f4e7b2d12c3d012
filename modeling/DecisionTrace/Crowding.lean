import DecisionTrace.IntegerClauses
import Std.Data.HashSet

/-!
# Clauses that crowd each other out

Two literals exclude each other when a clause says that one of them is false. Of a group of literals
any two of which exclude each other, a model makes at most one true, while it makes one true in
every clause. So if clauses that share no literal have a model, they are no more than the groups
that their literals can be put into.

Like the sums of parities, this is seen at once where a search may take very long. The clauses and
the groups are found greedily, and any choice of them will do. The main statement is
`not_satisfiable_of_crowded`.
-/

namespace DecisionTrace

namespace IntegerClauses

/-- A valuation makes at most one literal of a group true. -/
def AtMostOne (v : Nat → Bool) (group : List Int) : Prop :=
  ∀ l ∈ group, ∀ m ∈ group, holds v l = true → holds v m = true → l = m

/-- Clauses that share no literal are no more than the groups that their true literals are in. -/
theorem length_le_of_atMostOne {v : Nat → Bool} {cs groups : List (List Int)}
    (htrue : ∀ c ∈ cs, ∃ l ∈ c, holds v l = true)
    (hapart : cs.Pairwise fun c d => ∀ l ∈ c, l ∉ d)
    (hone : ∀ g ∈ groups, AtMostOne v g)
    (hall : ∀ c ∈ cs, ∀ l ∈ c, holds v l = true → ∃ g ∈ groups, l ∈ g) :
    cs.length ≤ groups.length := by
  induction cs generalizing groups with
  | nil => exact Nat.zero_le _
  | cons c cs ih =>
    obtain ⟨l, hl, hvl⟩ := htrue c List.mem_cons_self
    obtain ⟨g, hg, hlg⟩ := hall c List.mem_cons_self l hl hvl
    obtain ⟨hc, hapart⟩ := List.pairwise_cons.1 hapart
    have hrest := @ih (groups.erase g) (fun d hd => htrue d (List.mem_cons_of_mem _ hd)) hapart
      (fun h hh => hone h (List.mem_of_mem_erase hh)) fun d hd m hm hvm => by
        obtain ⟨h, hh, hmh⟩ := hall d (List.mem_cons_of_mem _ hd) m hm hvm
        refine ⟨h, (List.mem_erase_of_ne ?_).2 hh, hmh⟩
        rintro rfl
        exact hc d hd l hl (hone h hg l hlg m hmh hvl hvm ▸ hm)
    have hpos := List.length_pos_of_mem hg
    rw [List.length_erase_of_mem hg] at hrest
    rw [List.length_cons]
    omega

/-- Clauses of which each shares no literal with those after it. -/
def apart : IntegerClauses → IntegerClauses
  | [] => []
  | c :: cs =>
    let ds := apart cs
    if ds.all fun d => c.all (· ∉ d) then c :: ds else ds

theorem subset_of_apart {cs : IntegerClauses} {c : List Int} (h : c ∈ apart cs) : c ∈ cs := by
  induction cs with
  | nil => exact h
  | cons d cs ih =>
    rw [apart] at h
    split at h
    · rcases List.mem_cons.1 h with rfl | h
      · exact List.mem_cons_self
      · exact List.mem_cons_of_mem _ (ih h)
    · exact List.mem_cons_of_mem _ (ih h)

theorem pairwise_apart (cs : IntegerClauses) :
    (apart cs).Pairwise fun c d => ∀ l ∈ c, l ∉ d := by
  induction cs with
  | nil => exact .nil
  | cons c cs ih =>
    rw [apart]
    split
    · next h => exact List.pairwise_cons.2 ⟨by simpa using h, ih⟩
    · exact ih

/-- A clause of a table says that two literals are not both true. -/
def excludes (table : Std.HashSet (List Int)) (l m : Int) : Bool :=
  l ≠ 0 && m ≠ 0 && (table.contains [-l, -m] || table.contains [-m, -l])

/-- A literal of a clause joins the first group that it can: each member excludes it and is not of
its clause. If there is none, it forms a group. -/
def join (table : Std.HashSet (List Int)) (c : List Int) (l : Int) :
    List (List Int) → List (List Int)
  | [] => [[l]]
  | g :: gs =>
    if g.all fun m => m ∉ c && excludes table l m then (l :: g) :: gs else g :: join table c l gs

/-- The groups of the literals of clauses, unless they get as many as a limit. -/
def groups (table : Std.HashSet (List Int)) (limit : Nat) :
    List (List Int × Int) → List (List Int)
  | [] => []
  | (c, l) :: rest =>
    let gs := groups table limit rest
    if limit ≤ gs.length then gs else join table c l gs

theorem mem_join {table : Std.HashSet (List Int)} {c : List Int} {l m : Int}
    {gs : List (List Int)} (h : m = l ∨ ∃ g ∈ gs, m ∈ g) : ∃ g ∈ join table c l gs, m ∈ g := by
  induction gs with
  | nil => simpa [join] using h
  | cons g gs ih =>
    rw [join]
    rcases h with rfl | ⟨g', hg', hm⟩
    · split
      · exact ⟨m :: g, List.mem_cons_self, List.mem_cons_self⟩
      · obtain ⟨h, hh, hm⟩ := ih (.inl rfl)
        exact ⟨h, List.mem_cons_of_mem _ hh, hm⟩
    · rcases List.mem_cons.1 hg' with rfl | hg'
      · split
        · exact ⟨l :: g', List.mem_cons_self, List.mem_cons_of_mem _ hm⟩
        · exact ⟨g', List.mem_cons_self, hm⟩
      · split
        · exact ⟨g', List.mem_cons_of_mem _ hg', hm⟩
        · obtain ⟨h, hh, hm⟩ := ih (.inr ⟨g', hg', hm⟩)
          exact ⟨h, List.mem_cons_of_mem _ hh, hm⟩

theorem mem_groups {table : Std.HashSet (List Int)} {limit : Nat}
    {literals : List (List Int × Int)} (h : (groups table limit literals).length < limit)
    {c : List Int} {l : Int} (hl : (c, l) ∈ literals) :
    ∃ g ∈ groups table limit literals, l ∈ g := by
  induction literals with
  | nil => cases hl
  | cons first rest ih =>
    rw [groups] at h ⊢
    split at h
    · omega
    · next hlimit =>
      rw [if_neg hlimit]
      rcases List.mem_cons.1 hl with rfl | hl
      · exact mem_join (.inl rfl)
      · exact mem_join (.inr (ih (by omega) hl))

section Model

variable {v : Nat → Bool} {table : Std.HashSet (List Int)}
  (htable : ∀ c, table.contains c = true → ∃ l ∈ c, holds v l = true)

include htable

theorem not_both {l m : Int} (h : excludes table l m = true) :
    ¬ (holds v l = true ∧ holds v m = true) := fun ⟨hvl, hvm⟩ => by
  simp only [excludes, Bool.and_eq_true, Bool.or_eq_true, decide_eq_true_eq] at h
  obtain ⟨⟨hl, hm⟩, h⟩ := h
  rcases h with h | h <;> obtain ⟨k, hk, hvk⟩ := htable _ h <;>
    simp only [List.mem_cons, List.not_mem_nil, or_false] at hk <;>
    rcases hk with rfl | rfl <;>
    simp [holds_neg hl, holds_neg hm, hvl, hvm] at hvk

theorem atMostOne_join {c : List Int} {l : Int} {gs : List (List Int)}
    (hone : ∀ g ∈ gs, AtMostOne v g) : ∀ g ∈ join table c l gs, AtMostOne v g := by
  induction gs with
  | nil => simp [join, AtMostOne]
  | cons g gs ih =>
    obtain ⟨hg, hgs⟩ := List.forall_mem_cons.1 hone
    rw [join]
    split
    · next hall =>
      refine List.forall_mem_cons.2 ⟨fun a ha b hb hva hvb => ?_, hgs⟩
      have hex : ∀ m ∈ g, ¬ (holds v l = true ∧ holds v m = true) := fun m hm => by
        have := List.all_eq_true.1 hall m hm
        rw [Bool.and_eq_true] at this
        exact not_both htable this.2
      rcases List.mem_cons.1 ha with hal | ha <;> rcases List.mem_cons.1 hb with hbl | hb
      · rw [hal, hbl]
      · exact absurd ⟨hal ▸ hva, hvb⟩ (hex b hb)
      · exact absurd ⟨hbl ▸ hvb, hva⟩ (hex a ha)
      · exact hg a ha b hb hva hvb
    · exact List.forall_mem_cons.2 ⟨hg, ih hgs⟩

theorem atMostOne_groups (limit : Nat) (literals : List (List Int × Int)) :
    ∀ g ∈ groups table limit literals, AtMostOne v g := by
  induction literals with
  | nil => intro g hg; cases hg
  | cons first rest ih =>
    rw [groups]
    split
    · exact ih
    · exact atMostOne_join htable ih

end Model

/-- Clauses of at least two literals, none of them negated, that share no literal. -/
def demands (cs : IntegerClauses) : IntegerClauses :=
  apart (cs.filter fun c => 2 ≤ c.length && c.all (0 < ·))

/-- Whether there are clauses that share no literal and are more than the groups found for their
literals. -/
def crowded (cs : IntegerClauses) : Bool :=
  let ds := demands cs
  (groups (Std.HashSet.ofList cs) ds.length (ds.flatMap fun d => d.map fun l => (d, l))).length <
    ds.length

/-- Clauses that crowd each other out have no model. -/
theorem not_satisfiable_of_crowded {cs : IntegerClauses} (h : cs.crowded = true) :
    ¬ cs.Satisfiable := fun ⟨v, hv⟩ => by
  rw [satisfiedBy_iff] at hv
  simp only [crowded, decide_eq_true_eq] at h
  have htable : ∀ c, (Std.HashSet.ofList cs).contains c = true → ∃ l ∈ c, holds v l = true :=
    fun c hc => hv c (by simpa [Std.HashSet.contains_ofList] using hc)
  refine absurd (length_le_of_atMostOne (fun d hd => ?_) (pairwise_apart _)
    (atMostOne_groups htable _ _) fun d hd l hl _ => ?_) (Nat.not_le.2 h)
  · exact hv d (List.mem_filter.1 (subset_of_apart hd)).1
  · exact mem_groups h (List.mem_flatMap.2 ⟨d, hd, List.mem_map_of_mem hl⟩)

end IntegerClauses

end DecisionTrace
