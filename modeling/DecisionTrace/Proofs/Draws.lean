import DecisionTrace.Random.Draw
import Mathlib.Data.List.Perm.Subperm
import Mathlib.Data.List.Perm.Basic

/-!
# What draws ensure

A draw is a program over a stream of words, and what is known of its result holds on every stream.
`Ensures d Q E` says so: wherever the stream stands, `d` gives something with the property `Q` or
fails for a reason with the property `E`. There is one rule for each way of building a draw, and
below them one lemma for each draw of the library; whatever draws with it uses that lemma alone.

No number below a bound is known in advance, so a loop that waits for a fitting one may run out of
attempts, however many there are. Apart from that a draw fails for what it was asked: a range
without numbers, or a sample that is larger than what it is taken from. A sample takes the items of
different places (`Draw.sample_ensures`), and a shuffled list is a permutation
(`Draw.shuffle_ensures`).
-/

open scoped List

namespace DecisionTrace

variable {ε σ α β : Type}

/-- On every stream the draw gives something with the first property, or fails for a reason with
the second. -/
def Ensures (d : ExceptT ε (StateM σ) α) (Q : α → Prop) (E : ε → Prop) : Prop :=
  ∀ stream, match (d.run.run stream).1 with
    | .ok a => Q a
    | .error e => E e

namespace Ensures

variable {d : ExceptT ε (StateM σ) α} {f : α → ExceptT ε (StateM σ) β} {a : α} {e : ε}
  {Q Q' : α → Prop} {R : β → Prop} {E E' : ε → Prop}

theorem pure (h : Q a) : Ensures (Pure.pure a : ExceptT ε (StateM σ) α) Q E :=
  fun _ => h

theorem throw (h : E e) : Ensures (throw e : ExceptT ε (StateM σ) α) Q E :=
  fun _ => h

theorem bind (hd : Ensures d Q E) (hf : ∀ a, Q a → Ensures (f a) R E) :
    Ensures (d >>= f) R E := by
  intro stream
  have h := hd stream
  simp only [ExceptT.run_bind, StateT.run_bind]
  generalize d.run.run stream = drawn at h ⊢
  obtain ⟨result, stream⟩ := drawn
  cases result with
  | ok a => exact hf a h stream
  | error e => exact h

theorem mono (hd : Ensures d Q E) (hQ : ∀ a, Q a → Q' a) (hE : ∀ e, E e → E' e) :
    Ensures d Q' E' := by
  intro stream
  have h := hd stream
  split at h
  · exact hQ _ h
  · exact hE _ h

end Ensures

namespace Draw

variable [WordStream σ]

/-! ## Numbers -/

theorem word_ensures : Ensures (word : Draw σ UInt32) (fun _ => True) fun _ => False :=
  fun _ => trivial

theorem bits_ensures (k : Nat) : Ensures (bits k : Draw σ Nat) (fun _ => True) fun _ => False := by
  induction k using Nat.strongRecOn with
  | ind k ih =>
    rw [bits]
    split
    · exact .pure trivial
    · split
      · exact word_ensures.bind fun _ _ => .pure trivial
      · refine word_ensures.bind fun _ _ => ?_
        exact (ih (k - 32) (by omega)).bind fun _ _ => .pure trivial

theorem belowWithin_ensures (n k attempts : Nat) :
    Ensures (belowWithin n k attempts : Draw σ (Fin n)) (fun _ => True) (· = .exhausted) := by
  induction attempts with
  | zero => exact .throw rfl
  | succ attempts ih =>
    rw [belowWithin]
    refine ((bits_ensures k).mono (fun _ h => h) fun _ h => h.elim).bind fun r _ => ?_
    split
    · exact .pure trivial
    · exact ih

theorem below_ensures (attempts n : Nat) :
    Ensures (below attempts n : Draw σ (Fin n)) (fun _ => True) (· = .exhausted) :=
  belowWithin_ensures n _ _

/-- A number between two bounds lies between them; without any such number the bounds are named. -/
theorem between_ensures (attempts : Nat) (low high : Int) :
    Ensures (between attempts low high : Draw σ Int) (fun x => low ≤ x ∧ x ≤ high)
      fun e => e = .exhausted ∨ high < low ∧ e = .emptyRange low high := by
  rw [between]
  split
  · next h => exact .throw (.inr ⟨h, rfl⟩)
  · refine ((below_ensures _ _).mono (fun _ h => h) fun _ => .inl).bind fun j _ => .pure ?_
    have hj := j.isLt
    omega

theorem coin_ensures : Ensures (coin : Draw σ Bool) (fun _ => True) fun _ => False := by
  have hfraction : Ensures (fraction : Draw σ Nat) (fun _ => True) fun _ => False :=
    word_ensures.bind fun _ _ => word_ensures.bind fun _ _ => .pure trivial
  exact hfraction.bind fun _ _ => .pure trivial

/-! ## Samples -/

/-- The item that is taken out of a pool and what is left are the pool. -/
theorem get_cons_dropLast_perm {pool : List α} (h : pool ≠ []) (j : Fin pool.length) :
    pool.get j :: (pool.set j (pool.getLast h)).dropLast ~ pool := by
  obtain ⟨front, last, rfl⟩ : ∃ front last, pool = front ++ [last] :=
    ⟨_, _, (List.dropLast_append_getLast h).symm⟩
  obtain ⟨j, hj⟩ := j
  simp only [List.length_append, List.length_singleton] at hj
  simp only [List.getLast_append_singleton, List.get_eq_getElem]
  rcases Nat.lt_or_ge j front.length with hlt | hge
  · -- the last item stands in the place of the one that was taken
    rw [List.getElem_append_left hlt, List.set_append_left _ _ hlt, List.dropLast_concat]
    have hset : front[j] :: front.set j last ~ last :: front[j] :: front.eraseIdx j :=
      ((List.set_perm_cons_eraseIdx hlt _).cons _).trans (.swap ..)
    have herase : last :: front[j] :: front.eraseIdx j ~ last :: front :=
      (List.getElem_cons_eraseIdx_perm hlt).cons _
    exact (hset.trans herase).trans (List.perm_append_singleton last front).symm
  · obtain rfl : j = front.length := by omega
    simp only [List.getElem_concat_length, List.set_append_right _ _ (Nat.le_refl _), Nat.sub_self,
      List.set_cons_zero, List.dropLast_concat]
    exact (List.perm_append_singleton last front).symm

theorem fromPool_ensures (attempts k : Nat) (pool : List α) :
    Ensures (fromPool attempts k pool : Draw σ (List α))
      (fun chosen => chosen <+~ pool ∧ chosen.length = k)
      fun e => e = .exhausted ∨ e = .sampleSize ∧ pool.length < k := by
  induction k generalizing pool with
  | zero => exact .pure ⟨List.nil_subperm, rfl⟩
  | succ k ih =>
    rw [fromPool]
    split
    · next h => exact .throw (.inr ⟨rfl, by simp [h]⟩)
    · next h =>
      refine ((below_ensures _ _).mono (fun _ h => h) fun _ => .inl).bind fun j _ => ?_
      have hperm := get_cons_dropLast_perm h j
      have hlength : (pool.set j (pool.getLast h)).dropLast.length + 1 = pool.length :=
        hperm.length_eq
      refine ((ih _).mono (fun _ h => h) ?_).bind ?_
      · rintro e (rfl | ⟨rfl, hlt⟩)
        · exact .inl rfl
        · exact .inr ⟨rfl, by omega⟩
      · rintro rest ⟨hrest, rfl⟩
        exact .pure ⟨((List.subperm_cons _).2 hrest).trans hperm.subperm, rfl⟩

theorem freshWithin_ensures (attempts : Nat) {n : Nat} (drawn : List (Fin n)) (tries : Nat) :
    Ensures (freshWithin attempts n drawn tries : Draw σ (Fin n)) (· ∉ drawn)
      (· = .exhausted) := by
  induction tries with
  | zero => exact .throw rfl
  | succ tries ih =>
    rw [freshWithin]
    refine (below_ensures _ n).bind fun j _ => ?_
    split
    · exact ih
    · next h => exact .pure h

theorem freshIndices_ensures (attempts : Nat) {n : Nat} (k : Nat) {drawn : List (Fin n)}
    (hdrawn : drawn.Nodup) :
    Ensures (freshIndices attempts n k drawn : Draw σ (List (Fin n)))
      (fun chosen => (chosen ++ drawn).Nodup ∧ chosen.length = k) (· = .exhausted) := by
  induction k generalizing drawn with
  | zero => exact .pure ⟨hdrawn, rfl⟩
  | succ k ih =>
    rw [freshIndices]
    refine (freshWithin_ensures _ drawn _).bind fun j hj => ?_
    refine (ih (List.nodup_cons.2 ⟨hj, hdrawn⟩)).bind ?_
    rintro rest ⟨hrest, rfl⟩
    exact .pure ⟨List.perm_middle.nodup_iff.1 hrest, rfl⟩

/-- The items at different places of a list make up a part of it. -/
theorem map_get_subperm (items : List α) {places : List (Fin items.length)} (h : places.Nodup) :
    places.map items.get <+~ items := by
  obtain ⟨kept, hperm, hkept⟩ : places <+~ List.finRange items.length :=
    List.subperm_of_subset h fun j _ => List.mem_finRange j
  have hmap := hkept.map items.get
  rw [List.map_get_finRange] at hmap
  exact ⟨_, hperm.map items.get, hmap⟩

/-- A sample has as many items as were asked for, from different places. More items than there are,
or fewer than none, are refused. -/
theorem sample_ensures (attempts : Nat) (items : List α) (k : Int) :
    Ensures (sample attempts items k : Draw σ (List α))
      (fun chosen => chosen <+~ items ∧ (chosen.length : Int) = k)
      fun e => e = .exhausted ∨ e = .sampleSize ∧ (k < 0 ∨ items.length < k) := by
  rw [sample]
  split
  · next h => exact .throw (.inr ⟨rfl, h⟩)
  · split
    · refine (fromPool_ensures _ k.toNat items).mono ?_ ?_
      · rintro chosen ⟨hsub, hlength⟩
        exact ⟨hsub, by omega⟩
      · rintro e (rfl | ⟨rfl, hlt⟩)
        · exact .inl rfl
        · exact .inr ⟨rfl, .inr (by omega)⟩
    · refine ((freshIndices_ensures _ k.toNat .nil).mono (fun _ h => h) fun _ => .inl).bind ?_
      rintro places ⟨hnodup, hlength⟩
      rw [List.append_nil] at hnodup
      exact .pure ⟨map_get_subperm items hnodup, by rw [List.length_map]; omega⟩

/-- Fewer items than none are refused before anything is drawn. -/
theorem sample_of_neg {k : Int} (hk : k < 0) (attempts : Nat) (items : List α) :
    (sample attempts items k : Draw σ (List α)) = throw .sampleSize := by
  rw [sample, if_pos (.inl hk)]

/-- No items are taken without a draw. -/
theorem sample_zero (attempts : Nat) (items : List α) :
    (sample attempts items 0 : Draw σ (List α)) = pure [] := by
  rw [sample, if_neg (by omega)]
  split <;> rfl

/-! ## Shuffling -/

theorem swapIfInBounds_perm (items : Array α) (i j : Nat) :
    (items.swapIfInBounds i j).Perm items := by
  rw [Array.swapIfInBounds]
  split
  · split
    · exact Array.swap_perm _ _
    · exact .rfl
  · exact .rfl

theorem shuffleFrom_ensures (attempts i : Nat) (items : Array α) :
    Ensures (shuffleFrom attempts i items : Draw σ (Array α)) (·.Perm items) (· = .exhausted) := by
  induction i generalizing items with
  | zero => exact .pure .rfl
  | succ i ih =>
    rw [shuffleFrom]
    refine (below_ensures _ _).bind fun j _ => ?_
    exact (ih _).mono (fun _ h => h.trans (swapIfInBounds_perm items _ _)) fun _ h => h

/-- A shuffled list has the items of the list, each as often. -/
theorem shuffle_ensures (attempts : Nat) (items : List α) :
    Ensures (shuffle attempts items : Draw σ (List α)) (· ~ items) (· = .exhausted) := by
  rw [shuffle]
  refine (shuffleFrom_ensures _ _ _).bind fun shuffled h => .pure ?_
  exact Array.perm_iff_toList_perm.1 h

end Draw

/-- A stream to run draws on where any words will do: they go up in equal strides. -/
structure Strides where
  word : UInt32

instance : WordStream Strides where
  next s := (s.word, ⟨s.word + 0x9E3779B9⟩)

end DecisionTrace
