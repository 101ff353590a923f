import IdCompaction.Proofs.Grid.Launch
import Mathlib.Data.Prod.Lex

/-!
# The order of a launch

A launch takes the tiles one after another, of a tile the threads one after another, and of a thread
its elements one after another. Where an element comes is therefore told by three numbers: its tile,
its thread, and its turn in the thread. The elements that a grid visits are in increasing order of
these ranks, so what a launch finds first among them is what has the least rank, which need not be
the least element.
-/

namespace IdCompaction

/-- What is found first in a list that is sorted comes before everything else that could have been
found. -/
theorem find?_eq_some_iff_of_pairwise {ι κ : Type} [Preorder κ] {list : List ι} {p : ι → Bool}
    {rank : ι → κ} (hsorted : list.Pairwise fun i j => rank i < rank j) {i : ι} :
    list.find? p = some i ↔
      i ∈ list ∧ p i = true ∧ ∀ j ∈ list, p j = true → j ≠ i → rank i < rank j := by
  induction list with
  | nil => simp
  | cons first rest ih =>
    obtain ⟨hfirst, hrest⟩ := List.pairwise_cons.mp hsorted
    by_cases hp : p first = true
    · rw [List.find?_cons_of_pos hp]
      constructor
      · rintro ⟨⟩
        refine ⟨List.mem_cons_self, hp, fun j hj _ hne => hfirst j ?_⟩
        exact (List.mem_cons.mp hj).resolve_left hne
      · rintro ⟨hi, -, hleast⟩
        refine congrArg some (by_contra fun hne => ?_)
        have hafter := hfirst i ((List.mem_cons.mp hi).resolve_left (Ne.symm hne))
        exact lt_asymm hafter (hleast first List.mem_cons_self hp hne)
    · rw [List.find?_cons_of_neg hp, ih hrest]
      constructor
      · rintro ⟨hi, hpi, hleast⟩
        refine ⟨List.mem_cons_of_mem first hi, hpi, fun j hj hpj hne => hleast j ?_ hpj hne⟩
        exact (List.mem_cons.mp hj).resolve_left fun heq => hp (heq ▸ hpj)
      · rintro ⟨hi, hpi, hleast⟩
        refine ⟨(List.mem_cons.mp hi).resolve_left fun heq => hp (heq ▸ hpi), hpi, fun j hj => ?_⟩
        exact hleast j (List.mem_cons_of_mem first hj)

namespace Grid

variable {g : Grid} {block thread i j : Nat}

/-- Where a launch comes to an element: at its tile, its thread, and its turn in the thread, the
earlier numbers before the later ones. -/
def rank (g : Grid) (i : Nat) : Nat ×ₗ Nat ×ₗ Nat :=
  toLex (i / g.tileSize, toLex (i % g.tileSize % g.blockSize, i % g.tileSize / g.blockSize))

/-- The elements of a thread are ranked by its block, its own number, and their turns. -/
theorem rank_of_mem_share (hthread : thread < g.blockSize)
    (hi : i ∈ (g.share block thread).toList) :
    g.rank i = toLex (block, toLex (thread, (i - g.tileStart block) / g.blockSize)) := by
  obtain ⟨hstart, hend, hmod⟩ := (mem_share hthread i).mp hi
  have hbound : i < (block + 1) * g.tileSize := hend.trans_le (Nat.min_le_left ..)
  obtain ⟨offset, rfl⟩ := Nat.exists_eq_add_of_le hstart
  rw [Nat.add_sub_cancel_left] at hmod ⊢
  rw [tileStart, Nat.add_one_mul, Nat.add_lt_add_iff_left] at hbound
  have hdiv : (g.tileStart block + offset) / g.tileSize = block := by
    rw [tileStart, Nat.mul_comm, Nat.mul_add_div (Nat.zero_lt_of_lt hbound),
      Nat.div_eq_of_lt hbound, Nat.add_zero]
  have hrest : (g.tileStart block + offset) % g.tileSize = offset := by
    rw [tileStart, Nat.mul_comm, Nat.mul_add_mod, Nat.mod_eq_of_lt hbound]
  rw [rank, hdiv, hrest, hmod]

/-- A thread comes to its elements in the order of their ranks. -/
theorem pairwise_rank_share (hthread : thread < g.blockSize) (block : Nat) :
    (g.share block thread).toList.Pairwise fun i j => g.rank i < g.rank j := by
  have hsize := Nat.zero_lt_of_lt hthread
  refine (Progression.pairwise_toList hsize).imp_of_mem fun {i j} hi hj hlt => ?_
  obtain ⟨hstart, -, hmod⟩ := (mem_share hthread i).mp hi
  obtain ⟨-, -, hmod'⟩ := (mem_share hthread j).mp hj
  -- both leave the same remainder, so the larger one has the larger quotient
  have hsplit := Nat.mod_add_div (i - g.tileStart block) g.blockSize
  have hsplit' := Nat.mod_add_div (j - g.tileStart block) g.blockSize
  have hturn : (i - g.tileStart block) / g.blockSize < (j - g.tileStart block) / g.blockSize := by
    refine Nat.lt_of_mul_lt_mul_left (a := g.blockSize) ?_
    omega
  rw [rank_of_mem_share hthread hi, rank_of_mem_share hthread hj]
  exact Prod.Lex.toLex_lt_toLex.mpr (.inr ⟨rfl, Prod.Lex.toLex_lt_toLex.mpr (.inr ⟨rfl, hturn⟩)⟩)

/-- A block comes to its elements in the order of their ranks. -/
theorem pairwise_rank_order (g : Grid) (block : Nat) :
    (g.order block).Pairwise fun i j => g.rank i < g.rank j := by
  rw [order, List.pairwise_flatMap]
  refine ⟨fun thread hthread => pairwise_rank_share (List.mem_range.mp hthread) block, ?_⟩
  refine List.pairwise_lt_range.imp_of_mem fun {first second} hfirst hsecond hlt i hi j hj => ?_
  rw [rank_of_mem_share (List.mem_range.mp hfirst) hi,
    rank_of_mem_share (List.mem_range.mp hsecond) hj]
  exact Prod.Lex.toLex_lt_toLex.mpr (.inr ⟨rfl, Prod.Lex.toLex_lt_toLex.mpr (.inl hlt)⟩)

/-- An element of a block is ranked by its block first. -/
theorem exists_rank_of_mem_order (hi : i ∈ g.order block) :
    ∃ later, g.rank i = toLex (block, later) := by
  obtain ⟨thread, hthread, hi⟩ := List.mem_flatMap.mp hi
  exact ⟨_, rank_of_mem_share (List.mem_range.mp hthread) hi⟩

/-- A launch comes to its elements in the order of their ranks. -/
theorem pairwise_rank_launchOrder (g : Grid) :
    g.launchOrder.Pairwise fun i j => g.rank i < g.rank j := by
  rw [launchOrder, List.pairwise_flatMap]
  refine ⟨fun block _ => g.pairwise_rank_order block, ?_⟩
  refine List.pairwise_lt_range.imp fun {first second} hlt i hi j hj => ?_
  obtain ⟨later, hi⟩ := exists_rank_of_mem_order hi
  obtain ⟨later', hj⟩ := exists_rank_of_mem_order hj
  rw [hi, hj]
  exact Prod.Lex.toLex_lt_toLex.mpr (.inl hlt)

/-- The order of a launch is that of the visits of its grid. -/
theorem visits_eq_launchOrder (hfits : g.Fits) : g.visits = .ok g.launchOrder :=
  visits_of_fits hfits

/-- The order of such a launch as a list of places of its input. -/
theorem exists_places_launchOrder (hsize : 0 < g.blockSize)
    (hcovers : g.elements ≤ g.blocks * g.tileSize) {count : Nat} (hcount : g.elements = count) :
    ∃ order : List (Fin count), order.map Fin.val = g.launchOrder ∧
      order.Perm (List.finRange count) := by
  have hperm := launchOrder_perm hsize hcovers
  have hlt : ∀ i ∈ g.launchOrder, i < count := fun i hi =>
    hcount ▸ List.mem_range.mp (hperm.mem_iff.mp hi)
  have hval : (g.launchOrder.pmap Fin.mk hlt).map Fin.val = g.launchOrder := by
    simp [List.map_pmap]
  refine ⟨g.launchOrder.pmap Fin.mk hlt, hval, ?_⟩
  rw [← List.map_perm_map_iff fun _ _ => Fin.ext, hval, List.map_coe_finRange_eq_range, ← hcount]
  exact hperm

end Grid

end IdCompaction
