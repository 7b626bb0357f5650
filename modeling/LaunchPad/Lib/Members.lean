import Mathlib.Data.List.Induction
import Mathlib.Data.List.Nodup
import Mathlib.Data.List.Sort

/-!
# Named members

An object is made by assigning its members one after the other. A name that is there already keeps
its place and gets the new value, so an object has each name once, with the last value assigned to
it. `arranged` puts the members with an index first, in the order of their indices.
-/

namespace Members

variable {K α β : Type} [DecidableEq K]

def assign (key : K) (x : α) : List (K × α) → List (K × α)
  | [] => [(key, x)]
  | m :: ms => if m.1 = key then (key, x) :: ms else m :: assign key x ms

/-- The members in the order in which their names came. -/
def create (ms : List (K × α)) : List (K × α) := ms.foldl (fun object m => assign m.1 m.2 object) []

/-- The members with an index before the others. -/
def arranged (index : K → Option ℕ) (ms : List (K × α)) : List (K × α) :=
  (ms.filter fun m => (index m.1).isSome).insertionSort
      (fun m m' => (index m.1).getD 0 ≤ (index m'.1).getD 0)
    ++ ms.filter fun m => !(index m.1).isSome

/-- The last value with the name. -/
def lastOf (key : K) : List (K × α) → Option α
  | [] => none
  | m :: ms => (lastOf key ms).or (if m.1 = key then some m.2 else none)

variable {ms ms' : List (K × α)} {key : K}

theorem lastOf_append (ms ms' : List (K × α)) (key : K) :
    lastOf key (ms ++ ms') = (lastOf key ms').or (lastOf key ms) := by
  induction ms with
  | nil => exact Option.or_none.symm
  | cons m ms ih => rw [List.cons_append, lastOf, ih, Option.or_assoc, lastOf]

theorem mem_of_lastOf {x : α} (h : lastOf key ms = some x) : (key, x) ∈ ms := by
  induction ms with
  | nil => cases h
  | cons m ms ih =>
    rw [lastOf, Option.or_eq_some_iff] at h
    rcases h with h | ⟨-, h⟩
    · exact List.mem_cons_of_mem m (ih h)
    · split_ifs at h with hk
      cases h
      exact hk ▸ List.mem_cons_self

theorem lastOf_eq_none (h : key ∉ ms.map Prod.fst) : lastOf key ms = none := by
  refine Option.eq_none_iff_forall_not_mem.2 fun x hx => h ?_
  exact List.mem_map_of_mem (f := Prod.fst) (mem_of_lastOf hx)

/-! ## Names that occur once -/

theorem lastOf_eq_some_iff (h : (ms.map Prod.fst).Nodup) {x : α} :
    lastOf key ms = some x ↔ (key, x) ∈ ms := by
  refine ⟨mem_of_lastOf, fun hx => ?_⟩
  induction ms with
  | nil => cases hx
  | cons m ms ih =>
    obtain ⟨hm, hms⟩ := List.nodup_cons.1 h
    rw [lastOf]
    rcases List.mem_cons.1 hx with rfl | hx
    · rw [lastOf_eq_none hm, if_pos rfl, Option.none_or]
    · rw [ih hms hx, Option.some_or]

theorem lastOf_perm (h : (ms.map Prod.fst).Nodup) (hp : ms'.Perm ms) (key : K) :
    lastOf key ms' = lastOf key ms := by
  ext x
  rw [lastOf_eq_some_iff h, lastOf_eq_some_iff ((hp.map Prod.fst).nodup_iff.2 h), hp.mem_iff]

theorem fst_mem_assign {k : K} {x : α} (h : k ∈ (assign key x ms).map Prod.fst) :
    k = key ∨ k ∈ ms.map Prod.fst := by
  induction ms with
  | nil => exact .inl (by simpa [assign] using h)
  | cons m ms ih =>
    rw [assign] at h
    split_ifs at h with hk
    · rw [List.map_cons, List.mem_cons] at h
      exact h.imp id fun h => List.mem_cons_of_mem m.1 h
    · rw [List.map_cons, List.mem_cons] at h
      rcases h with rfl | h
      · exact .inr List.mem_cons_self
      · exact (ih h).imp id fun h => List.mem_cons_of_mem m.1 h

theorem nodup_assign (h : (ms.map Prod.fst).Nodup) (key : K) (x : α) :
    ((assign key x ms).map Prod.fst).Nodup := by
  induction ms with
  | nil => simp [assign]
  | cons m ms ih =>
    obtain ⟨hm, hms⟩ := List.nodup_cons.1 h
    rw [assign]
    split_ifs with hk
    · exact List.nodup_cons.2 ⟨hk ▸ hm, hms⟩
    · refine List.nodup_cons.2 ⟨fun hmem => ?_, ih hms⟩
      exact (fst_mem_assign hmem).elim hk hm

/-- An assignment changes the one value. -/
theorem lastOf_assign (h : (ms.map Prod.fst).Nodup) (k : K) (x : α) (key : K) :
    lastOf key (assign k x ms) = if k = key then some x else lastOf key ms := by
  induction ms with
  | nil => simp [assign, lastOf]
  | cons m ms ih =>
    obtain ⟨hm, hms⟩ := List.nodup_cons.1 h
    rw [assign]
    split_ifs with hmk hk hk
    · subst hk hmk
      rw [lastOf, lastOf_eq_none hm, if_pos rfl, Option.none_or]
    · rw [lastOf, lastOf, if_neg hk, if_neg (hmk ▸ hk)]
    · rw [lastOf, ih hms, if_pos hk, Option.some_or]
    · rw [lastOf, ih hms, if_neg hk, lastOf]

theorem create_append_singleton (ms : List (K × α)) (m : K × α) :
    create (ms ++ [m]) = assign m.1 m.2 (create ms) := by
  rw [create, List.foldl_append]
  rfl

theorem nodup_create (ms : List (K × α)) : ((create ms).map Prod.fst).Nodup := by
  induction ms using List.reverseRecOn with
  | nil => exact List.nodup_nil
  | append_singleton ms m ih => exact create_append_singleton ms m ▸ nodup_assign ih m.1 m.2

/-- An object has the last value of each name. -/
theorem lastOf_create (ms : List (K × α)) (key : K) : lastOf key (create ms) = lastOf key ms := by
  induction ms using List.reverseRecOn with
  | nil => rfl
  | append_singleton ms m ih =>
    rw [create_append_singleton, lastOf_assign (nodup_create ms), lastOf_append, ih]
    split_ifs with hk <;> simp [lastOf, hk]

theorem mem_of_mem_create {m : K × α} (h : m ∈ create ms) : m ∈ ms := by
  have hlast := (lastOf_eq_some_iff (nodup_create ms)).2 h
  rw [lastOf_create] at hlast
  exact mem_of_lastOf hlast

variable (index : K → Option ℕ)

omit [DecidableEq K] in
theorem arranged_perm (ms : List (K × α)) : (arranged index ms).Perm ms :=
  ((List.perm_insertionSort _ _).append_right _).trans
    (List.filter_append_perm (fun m => (index m.1).isSome) ms)

theorem nodup_arranged_create (ms : List (K × α)) :
    ((arranged index (create ms)).map Prod.fst).Nodup :=
  ((arranged_perm index (create ms)).map Prod.fst).nodup_iff.2 (nodup_create ms)

theorem lastOf_arranged_create (ms : List (K × α)) (key : K) :
    lastOf key (arranged index (create ms)) = lastOf key ms := by
  rw [lastOf_perm (nodup_create ms) (arranged_perm index (create ms)), lastOf_create]

/-! ## Other values for the same names -/

section Map

variable (g : α → β)

def mapValues (ms : List (K × α)) : List (K × β) := ms.map fun m => (m.1, g m.2)

theorem mapValues_assign (key : K) (x : α) (ms : List (K × α)) :
    mapValues g (assign key x ms) = assign key (g x) (mapValues g ms) := by
  induction ms with
  | nil => rfl
  | cons m ms ih =>
    change mapValues g (assign key x (m :: ms))
      = assign key (g x) ((m.1, g m.2) :: mapValues g ms)
    rw [assign, assign]
    split_ifs with hk
    · rfl
    · exact congrArg ((m.1, g m.2) :: ·) ih

theorem mapValues_create (ms : List (K × α)) :
    mapValues g (create ms) = create (mapValues g ms) := by
  induction ms using List.reverseRecOn with
  | nil => rfl
  | append_singleton ms m ih =>
    have happend : mapValues g (ms ++ [m]) = mapValues g ms ++ [(m.1, g m.2)] := List.map_append
    rw [create_append_singleton, mapValues_assign, ih, happend, create_append_singleton]

omit [DecidableEq K] in
theorem mapValues_arranged (ms : List (K × α)) :
    mapValues g (arranged index ms) = arranged index (mapValues g ms) := by
  unfold arranged mapValues
  rw [List.map_append, List.filter_map, List.filter_map]
  congr 1
  exact List.map_insertionSort _ _ _ _ fun _ _ _ _ => Iff.rfl

theorem lastOf_mapValues (ms : List (K × α)) (key : K) :
    lastOf key (mapValues g ms) = (lastOf key ms).map g := by
  induction ms with
  | nil => rfl
  | cons m ms ih =>
    change lastOf key ((m.1, g m.2) :: mapValues g ms) = _
    rw [lastOf, lastOf, ih]
    split_ifs <;> cases lastOf key ms <;> rfl

end Map

/-! ## Objects that are made again -/

theorem assign_of_notMem {x : α} (h : key ∉ ms.map Prod.fst) :
    assign key x ms = ms ++ [(key, x)] := by
  induction ms with
  | nil => rfl
  | cons m ms ih =>
    rw [List.map_cons, List.mem_cons, not_or] at h
    rw [assign, if_neg (Ne.symm h.1), ih h.2, List.cons_append]

theorem create_of_nodup (h : (ms.map Prod.fst).Nodup) : create ms = ms := by
  induction ms using List.reverseRecOn with
  | nil => rfl
  | append_singleton ms m ih =>
    rw [List.map_append, List.nodup_append] at h
    have hm : m.1 ∉ ms.map Prod.fst := fun hm => h.2.2 m.1 hm m.1 (by simp) rfl
    rw [create_append_singleton, ih h.1, assign_of_notMem hm]

omit [DecidableEq K] in
theorem arranged_arranged (ms : List (K × α)) :
    arranged index (arranged index ms) = arranged index ms := by
  let r : K × α → K × α → Prop := fun m m' => (index m.1).getD 0 ≤ (index m'.1).getD 0
  have : Std.Total r := ⟨fun m m' => Nat.le_total _ _⟩
  have : IsTrans (K × α) r := ⟨fun _ _ _ => Nat.le_trans⟩
  let front := (ms.filter fun m => (index m.1).isSome).insertionSort r
  let back := ms.filter fun m => !(index m.1).isSome
  have hfront : ∀ m ∈ front, (index m.1).isSome := fun m hm =>
    (List.mem_filter.1 ((List.mem_insertionSort r).1 hm)).2
  have hback : ∀ m ∈ back, (index m.1).isSome = false := fun m hm => by
    simpa using (List.mem_filter.1 hm).2
  have hsorted : front.insertionSort r = front := (List.pairwise_insertionSort r _).insertionSort_eq
  have hsome : (front ++ back).filter (fun m => (index m.1).isSome) = front := by
    rw [List.filter_append, List.filter_eq_self.2 hfront,
      List.filter_eq_nil_iff.2 fun m hm => by simp [hback m hm], List.append_nil]
  have hnone : (front ++ back).filter (fun m => !(index m.1).isSome) = back := by
    rw [List.filter_append, List.filter_eq_nil_iff.2 fun m hm => by simp [hfront m hm],
      List.filter_eq_self.2 fun m hm => by simp [hback m hm], List.nil_append]
  change ((front ++ back).filter _).insertionSort r ++ (front ++ back).filter _ = front ++ back
  rw [hsome, hnone, hsorted]

/-- An object whose members are assigned in the order in which they are visited is the same. -/
theorem arranged_create_again (ms : List (K × α)) :
    arranged index (create (arranged index (create ms))) = arranged index (create ms) := by
  rw [create_of_nodup (nodup_arranged_create index ms), arranged_arranged]

omit [DecidableEq K] in
/-- Without indices, members stay in the order in which they came. -/
theorem arranged_of_none (h : ∀ m ∈ ms, index m.1 = none) : arranged index ms = ms := by
  have hsome : ms.filter (fun m => (index m.1).isSome) = [] :=
    List.filter_eq_nil_iff.2 fun m hm => by simp [h m hm]
  have hnone : ms.filter (fun m => !(index m.1).isSome) = ms :=
    List.filter_eq_self.2 fun m hm => by simp [h m hm]
  rw [arranged, hsome, hnone]
  rfl

end Members
