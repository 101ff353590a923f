import IdCompaction.Memory.Buffer
import IdCompaction.Proofs.Loop

/-!
# Built buffers

A buffer that was built holds in each place what its initialiser made for that place, on the context
that was asked for. Nothing is assumed about the service that granted the memory.
-/

namespace IdCompaction.Buffer

variable {σ α : Type} {length : Nat}

/-- Building on leaves the elements built before as they are. -/
theorem getElem?_fill_of_lt (init : Nat → Except Fault α) (count : Nat) (built : Array α) {i : Nat}
    (hi : i < built.size) : (fill init count built).1[i]? = built[i]? := by
  induction count generalizing built with
  | zero => rfl
  | succ count ih =>
    unfold fill
    split
    · next x _ =>
      have hpush : i < (built.push x).size := by
        rw [Array.size_push]
        exact Nat.lt_succ_of_lt hi
      rw [ih _ hpush, Array.getElem?_push_lt hi, Array.getElem?_eq_getElem hi]
    · rfl

/-- A building that no fault stops puts in each place what the initialiser makes for it. -/
theorem getElem?_fill (init : Nat → Except Fault α) (count : Nat) (built : Array α)
    (h : (fill init count built).2 = none) {i : Nat} (hfrom : built.size ≤ i)
    (hto : i < built.size + count) :
    ∃ x, init i = .ok x ∧ (fill init count built).1[i]? = some x := by
  induction count generalizing built with
  | zero => exact absurd hto (Nat.not_lt.mpr hfrom)
  | succ count ih =>
    unfold fill at h ⊢
    split
    · next x hx =>
      rw [hx] at h
      obtain rfl | hlt := Nat.eq_or_lt_of_le hfrom
      · refine ⟨x, hx, ?_⟩
        rw [getElem?_fill_of_lt init count _ (by simp), Array.getElem?_push_size]
      · refine ih _ h ?_ ?_
        · rw [Array.size_push]
          exact hlt
        · rw [Array.size_push]
          omega
    · next fault hfault =>
      rw [hfault] at h
      cases h

/-- The elements that an initialiser makes for `count` places from `start` on, up to its first
fault. -/
def made (init : Nat → Except Fault α) (start count : Nat) : List α :=
  (((List.range' start count).map init).takeWhile Except.isOk).filterMap Except.toOption

/-- An element that was made is the first of those made. -/
theorem made_succ_of_ok {init : Nat → Except Fault α} {start : Nat} {x : α}
    (h : init start = .ok x) (count : Nat) :
    made init start (count + 1) = x :: made init (start + 1) count := by
  have hok : (Except.ok x : Except Fault α).isOk = true := rfl
  rw [made, List.range'_succ, List.map_cons, h, List.takeWhile_cons_of_pos hok]
  rfl

/-- No element is made from a fault on. -/
theorem made_succ_of_error {init : Nat → Except Fault α} {start : Nat} {fault : Fault}
    (h : init start = .error fault) (count : Nat) : made init start (count + 1) = [] := by
  have hfault : ¬(Except.error fault : Except Fault α).isOk = true := Bool.false_ne_true
  rw [made, List.range'_succ, List.map_cons, h, List.takeWhile_cons_of_neg hfault]
  rfl

/-- What is made is what the initialiser makes, place by place. -/
theorem getElem?_made (init : Nat → Except Fault α) (start count : Nat) {i : Nat} {x : α}
    (h : (made init start count)[i]? = some x) : init (start + i) = .ok x := by
  induction count generalizing start i with
  | zero => cases h
  | succ count ih =>
    rcases hx : init start with fault | y
    · rw [made_succ_of_error hx] at h
      cases h
    · rw [made_succ_of_ok hx] at h
      cases i with
      | zero =>
        obtain rfl : y = x := by simpa using h
        exact hx
      | succ i =>
        rw [← Nat.succ_add_eq_add_succ]
        exact ih (start + 1) h

/-- Building adds what the initialiser makes, whether or not it meets a fault. -/
theorem toList_fill (init : Nat → Except Fault α) (count : Nat) (built : Array α) :
    (fill init count built).1.toList = built.toList ++ made init built.size count := by
  induction count generalizing built with
  | zero => simp [fill, made]
  | succ count ih =>
    rcases hx : init built.size with fault | x
    · simp [fill, hx, made_succ_of_error hx]
    · simp [fill, hx, made_succ_of_ok hx, ih]

/-- What was built from nothing is what the initialiser makes. -/
theorem toList_of_fill {init : Nat → Except Fault α} {count : Nat} {built : Array α}
    {stop : Option Fault} (h : fill init count #[] = (built, stop)) :
    built.toList = made init 0 count := by
  have hlist := toList_fill init count #[]
  rwa [h] at hlist

/-- The fault that stops a building is the initialiser's, for the first place without an element. -/
theorem fault_of_fill {init : Nat → Except Fault α} {count : Nat} {built : Array α} {fault : Fault}
    (h : (fill init count built).2 = some fault) :
    (made init built.size count).length < count ∧
      init (built.size + (made init built.size count).length) = .error fault := by
  induction count generalizing built with
  | zero => cases h
  | succ count ih =>
    rcases hx : init built.size with fault' | x
    · obtain rfl : fault' = fault := by simpa [fill, hx] using h
      simp [made_succ_of_error hx, hx]
    · have hrest : (fill init count (built.push x)).2 = some fault := by simpa [fill, hx] using h
      obtain ⟨hlt, hfault⟩ := ih hrest
      rw [Array.size_push] at hlt hfault
      rw [made_succ_of_ok hx, List.length_cons]
      refine ⟨Nat.succ_lt_succ hlt, ?_⟩
      rw [← hfault]
      congr 1
      omega

/-- A building that no fault stops builds as many elements as were asked for. -/
theorem size_of_fill {init : Nat → Except Fault α} {built : Array α}
    (h : fill init length #[] = (built, none)) : built.size = length := by
  have hsize := size_fill init length #[] (by rw [h])
  simpa [h] using hsize

variable {service : MemoryService σ} {element : Element σ α} {context : Context} {layout : Layout}
  {init : Nat → Except Fault α}

/-- Building asks for the grant and returns the elements, if all of them can be made. -/
theorem build_of_fill {built : Array α} (hlayout : element.layout.array length = some layout)
    (hfill : fill init length #[] = (built, none)) (size_eq : built.size = length) :
    build service element context length init =
      (service.allocate context layout).mapError Failure.refused >>= fun address =>
        pure ⟨context, address, ⟨built, size_eq⟩⟩ := by
  simp only [build, hlayout]
  congr 1
  funext address
  split
  · next built' hfill' =>
    obtain rfl : built = built' := congrArg Prod.fst (hfill.symm.trans hfill')
    rfl
  · next built' fault hfill' => cases hfill.symm.trans hfill'

/-- Building asks for the grant and gives it back, if an element cannot be made. -/
theorem build_of_fault {built : Array α} {fault : Fault}
    (hlayout : element.layout.array length = some layout)
    (hfill : fill init length #[] = (built, some fault)) :
    build service element context length init =
      (do
        let address ← (service.allocate context layout).mapError Failure.refused
        Action.modify (element.releaseAll built.toList)
        (service.deallocate context address layout).safely
        Action.fail (.fault fault)) := by
  simp only [build, hlayout]
  congr 1
  funext address
  split
  · next built' hfill' => cases hfill.symm.trans hfill'
  · next built' fault' hfill' =>
    cases hfill.symm.trans hfill'
    rfl

/-- Building copies of one element never stops. -/
theorem fill_const (x : α) (count : Nat) (built : Array α) :
    fill (fun _ => .ok x) count built = (built ++ Array.replicate count x, none) := by
  induction count generalizing built with
  | zero => simp [fill]
  | succ count ih => simp [fill, ih, Array.replicate_succ']

/-- Building copies of one element asks for the grant, and nothing else can go wrong. -/
theorem build_const (hlayout : element.layout.array length = some layout) (x : α) :
    build service element context length (fun _ => .ok x) =
      (service.allocate context layout).mapError Failure.refused >>= fun address =>
        pure ⟨context, address, .replicate length x⟩ := by
  have hfill : fill (fun _ => .ok x) length #[] = (Array.replicate length x, none) := by
    rw [fill_const, Array.empty_append]
  exact build_of_fill hlayout hfill Array.size_replicate

/-- A buffer whose elements need no letting go just gives its grant back. -/
theorem free_plain {size align : Nat} (b : Buffer α length)
    (hlayout : (Element.plain size align : Element σ α).layout.array length = some layout) :
    b.free service (.plain size align) = service.deallocate b.context b.address layout := by
  funext s
  have hkept : (Action.modify ((Element.plain size align).releaseAll b.cells.toList) :
      Action Empty σ Unit) s = ⟨s, [], .ok ()⟩ := by
    rw [Action.modify, Element.releaseAll_plain]
  rw [free, hlayout, Action.bind_apply_silent _ hkept]

/-- Every element of a built buffer is what the initialiser made for its place. -/
theorem get_of_build {s : σ} {b : Buffer α length}
    (h : (build service element context length init s).result = .ok b) (place : Fin length) :
    init place = .ok (b.get place) := by
  rcases hlayout : element.layout.array length with _ | layout
  · simp only [build, hlayout] at h
    cases h
  · rcases hfill : fill init length #[] with ⟨built, _ | fault⟩
    · obtain ⟨x, hx, hget⟩ := getElem?_fill init length #[] (by rw [hfill]) (i := place.val)
        (Nat.zero_le _) (by simp)
      rw [build_of_fill hlayout hfill (size_of_fill hfill)] at h
      obtain ⟨address, -, h⟩ := Action.result_bind_eq_ok_iff.mp h
      cases h
      rw [hfill] at hget
      obtain ⟨_, hget⟩ := Array.getElem?_eq_some_iff.mp hget
      rw [hx, ← hget]
      rfl
    · rw [build_of_fault hlayout hfill] at h
      obtain ⟨address, -, h⟩ := Action.result_bind_eq_ok_iff.mp h
      obtain ⟨_, -, h⟩ := Action.result_bind_eq_ok_iff.mp h
      obtain ⟨_, -, h⟩ := Action.result_bind_eq_ok_iff.mp h
      cases h

end IdCompaction.Buffer
