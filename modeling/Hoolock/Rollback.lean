import Mathlib.Data.List.Nodup

/-!
Setting one value on every member of a group, with a way back: the members are set in
order until one refuses, and then some of them are set back.
-/

set_option autoImplicit false

namespace Rollback

variable {σ α β : Type*}

/-- Set the members in order up to the first that refuses: the code of the last attempt,
the member that refused, and the state reached. -/
def tryAll (op : σ → α → Int × σ) : σ → List α → Int × Option α × σ
  | s, [] => (0, none, s)
  | s, a :: l =>
    if (op s a).1 ≠ 0 then ((op s a).1, some a, (op s a).2) else tryAll op (op s a).2 l

/-- Set the members in order, whatever the codes. -/
def applyAll (op : σ → α → Int × σ) (s : σ) (l : List α) : σ := l.foldl (fun s a => (op s a).2) s

/-- `op` sets the value of one member to `v`, or refuses and changes nothing; whether it
refuses does not depend on the other members. -/
structure Sets (get : σ → α → β) (I : σ → Prop) (op : σ → α → Int × σ) (v : β) : Prop where
  keeps : ∀ {s a}, I s → I (op s a).2
  done : ∀ {s a}, I s → (op s a).1 = 0 → get (op s a).2 a = v
  refused : ∀ {s a}, (op s a).1 ≠ 0 → (op s a).2 = s
  other : ∀ {s a b}, b ≠ a → get (op s a).2 b = get s b
  steady : ∀ {s a b}, b ≠ a → (op (op s a).2 b).1 = (op s b).1

section Apply

variable {get : σ → α → β} {I : σ → Prop} {op : σ → α → Int × σ} {v : β}

theorem Sets.applyAll_keeps (h : Sets get I op v) {s : σ} (hs : I s) (l : List α) :
    I (applyAll op s l) := by
  induction l generalizing s with
  | nil => exact hs
  | cons a l ih => exact ih (h.keeps hs)

theorem Sets.applyAll_other (h : Sets get I op v) {b : α} {l : List α} (hb : b ∉ l) (s : σ) :
    get (applyAll op s l) b = get s b := by
  induction l generalizing s with
  | nil => rfl
  | cons a l ih =>
    simp only [List.mem_cons, not_or] at hb
    exact (ih hb.2 _).trans (h.other hb.1)

theorem Sets.applyAll_get [DecidableEq α] (h : Sets get I op v) {s : σ} (hs : I s) {l : List α}
    (hnd : l.Nodup) (a : α) :
    get (applyAll op s l) a = if a ∈ l ∧ (op s a).1 = 0 then v else get s a := by
  induction l generalizing s with
  | nil => simp [applyAll]
  | cons b l ih =>
    obtain ⟨hbl, hnd⟩ := List.nodup_cons.mp hnd
    by_cases hab : a = b
    · subst hab
      have hlast : get (applyAll op s (a :: l)) a = get (op s a).2 a := h.applyAll_other hbl _
      rw [hlast]
      by_cases ha : (op s a).1 = 0
      · simp [ha, h.done hs ha]
      · simp [ha, h.refused ha]
    · have hrest := ih (h.keeps hs (a := b)) hnd
      rw [h.steady hab, h.other hab] at hrest
      simp only [List.mem_cons, hab, false_or]
      exact hrest

/-! The members of a group are known by keys, which tell them apart. -/

variable {γ : Type*} {f : γ → α}

theorem Sets.steady_rest (h : Sets get I op v) {s : σ} {c : γ} {l : List γ}
    (hc : f c ∉ l.map f) (hok : ∀ b ∈ l, (op s (f b)).1 = 0) :
    ∀ b ∈ l, (op (op s (f c)).2 (f b)).1 = 0 := by
  intro b hb
  have hbc : f b ≠ f c := fun e => hc (e ▸ List.mem_map_of_mem hb)
  rw [h.steady hbc]
  exact hok b hb

theorem Sets.tryAll_all (h : Sets get I op v) {s : σ} {l : List γ} (hnd : (l.map f).Nodup)
    (hok : ∀ c ∈ l, (op s (f c)).1 = 0) :
    tryAll (fun s c => op s (f c)) s l = (0, none, applyAll op s (l.map f)) := by
  induction l generalizing s with
  | nil => rfl
  | cons c l ih =>
    rw [List.map_cons, List.nodup_cons] at hnd
    have hrest := h.steady_rest hnd.1 fun b hb => hok b (List.mem_cons_of_mem c hb)
    have hc : (op s (f c)).1 = 0 := hok c List.mem_cons_self
    simp only [tryAll, hc, ne_eq, not_true_eq_false, if_false]
    exact ih hnd.2 hrest

theorem Sets.tryAll_stops (h : Sets get I op v) {s : σ} {l m : List γ} {x : γ}
    (hnd : ((l ++ x :: m).map f).Nodup) (hok : ∀ c ∈ l, (op s (f c)).1 = 0)
    (hx : (op s (f x)).1 ≠ 0) :
    tryAll (fun s c => op s (f c)) s (l ++ x :: m) =
      ((op s (f x)).1, some x, applyAll op s (l.map f)) := by
  induction l generalizing s with
  | nil => simp [tryAll, applyAll, hx, h.refused hx]
  | cons c l ih =>
    rw [List.cons_append, List.map_cons, List.nodup_cons] at hnd
    have hcl : f c ∉ l.map f := fun hm => hnd.1 (by simp only [List.map_append]; simp [hm])
    have hrest := h.steady_rest hcl fun b hb => hok b (List.mem_cons_of_mem c hb)
    have hxc : f x ≠ f c := fun e => hnd.1 (by simp [← e])
    have hc : (op s (f c)).1 = 0 := hok c List.mem_cons_self
    simp only [List.cons_append, tryAll, hc, ne_eq, not_true_eq_false, if_false]
    rw [ih hnd.2 hrest (by rwa [h.steady hxc]), h.steady hxc]
    rfl

end Apply

theorem first_refusal (accepts : α → Prop) (l : List α) :
    (∀ a ∈ l, accepts a) ∨ ∃ front x back, l = front ++ x :: back ∧
      (∀ a ∈ front, accepts a) ∧ ¬ accepts x := by
  induction l with
  | nil => simp
  | cons a l ih =>
    by_cases ha : accepts a
    · rcases ih with hall | ⟨front, x, back, rfl, hfront, hx⟩
      · exact Or.inl (by simpa [ha] using hall)
      · exact Or.inr ⟨a :: front, x, back, rfl, by simpa [ha] using hfront, hx⟩
    · exact Or.inr ⟨[], a, l, rfl, by simp, ha⟩

/-- A property that holds when nobody refuses, and otherwise says something of the first who
does. -/
theorem iff_first_refusal {accepts : α → Prop} {l : List α} {A : Prop}
    {P : List α → α → List α → Prop} (hall : (∀ a ∈ l, accepts a) → A)
    (hsome : ∀ front x back, l = front ++ x :: back → (∀ a ∈ front, accepts a) → ¬ accepts x →
      (A ↔ P front x back)) :
    A ↔ ∀ front x back, l = front ++ x :: back → (∀ a ∈ front, accepts a) → ¬ accepts x →
      P front x back := by
  constructor
  · intro hA front x back hl hok hx
    exact (hsome front x back hl hok hx).mp hA
  · intro hcond
    rcases first_refusal accepts l with hok | ⟨front, x, back, hl, hok, hx⟩
    · exact hall hok
    · exact (hsome front x back hl hok hx).mpr (hcond front x back hl hok hx)

section Congr

variable {γ : Type*} {op op' : σ → γ → Int × σ} {I : σ → Prop}

theorem applyAll_congr {l : List γ} (hI : ∀ t, I t → ∀ c ∈ l, I (op' t c).2)
    (he : ∀ t, I t → ∀ c ∈ l, op t c = op' t c) {s : σ} (hs : I s) :
    applyAll op s l = applyAll op' s l := by
  induction l generalizing s with
  | nil => rfl
  | cons c l ih =>
    have hrest := ih (fun t ht b hb => hI t ht b (List.mem_cons_of_mem c hb))
      (fun t ht b hb => he t ht b (List.mem_cons_of_mem c hb)) (hI s hs c List.mem_cons_self)
    simp only [applyAll, List.foldl_cons, he s hs c List.mem_cons_self] at hrest ⊢
    exact hrest

theorem tryAll_congr {l : List γ} (hI : ∀ t, I t → ∀ c ∈ l, I (op' t c).2)
    (he : ∀ t, I t → ∀ c ∈ l, op t c = op' t c) {s : σ} (hs : I s) :
    tryAll op s l = tryAll op' s l := by
  induction l generalizing s with
  | nil => rfl
  | cons c l ih =>
    have hrest := ih (fun t ht b hb => hI t ht b (List.mem_cons_of_mem c hb))
      (fun t ht b hb => he t ht b (List.mem_cons_of_mem c hb)) (hI s hs c List.mem_cons_self)
    simp only [tryAll, he s hs c List.mem_cons_self, hrest]

end Congr

theorem applyAll_map {γ : Type*} (f : γ → α) (op : σ → α → Int × σ) (s : σ) (l : List γ) :
    applyAll (fun s c => op s (f c)) s l = applyAll op s (l.map f) := by
  simp [applyAll, List.foldl_map]

section SetBack

variable {get : σ → α → β} {I : σ → Prop} {op undo : σ → α → Int × σ} {new old : β}
variable [DecidableEq α]

theorem Sets.set_back (h : Sets get I op new) (hu : Sets get I undo old) {s : σ} (hs : I s)
    {front undone : List α} (hfront : front.Nodup) (hok : ∀ a ∈ front, (op s a).1 = 0)
    (hundone : undone.Nodup) (a : α) :
    get (applyAll undo (applyAll op s front) undone) a =
      if a ∈ undone ∧ (undo (applyAll op s front) a).1 = 0 then old
      else if a ∈ front then new else get s a := by
  rw [hu.applyAll_get (h.applyAll_keeps hs front) hundone, h.applyAll_get hs hfront]
  by_cases hf : a ∈ front
  · simp [hf, hok a hf]
  · simp [hf]

variable {γ : Type*} {f : γ → α}

/-- With nobody set back, all are as they were exactly when they had the new value before. -/
theorem Sets.unrepaired_iff (h : Sets get I op new) {s : σ} (hs : I s) {front : List γ}
    (hnd : (front.map f).Nodup) (hok : ∀ c ∈ front, (op s (f c)).1 = 0) :
    (∀ a, get (applyAll op s (front.map f)) a = get s a) ↔ ∀ c ∈ front, get s (f c) = new := by
  have hget := h.applyAll_get hs hnd
  constructor
  · intro hall c hc
    rw [← hall (f c), hget, if_pos ⟨List.mem_map_of_mem hc, hok c hc⟩]
  · intro hnew a
    rw [hget]
    split_ifs with ha
    · obtain ⟨c, hc, rfl⟩ := List.mem_map.mp ha.1
      exact (hnew c hc).symm
    · rfl

/-- With the members in front of `x` and `x` itself set back, all are as they were exactly
when these had the old value, `x` only if it takes that one. -/
theorem Sets.repaired_iff (h : Sets get I op new) (hu : Sets get I undo old) {s : σ} (hs : I s)
    {front : List γ} {x : γ} (hnd : ((front ++ [x]).map f).Nodup)
    (hok : ∀ c ∈ front, (op s (f c)).1 = 0)
    (hback : ∀ c ∈ front, (undo (applyAll op s (front.map f)) (f c)).1 = 0) :
    (∀ a, get (applyAll undo (applyAll op s (front.map f)) ((front ++ [x]).map f)) a = get s a) ↔
      (∀ c ∈ front, get s (f c) = old) ∧
        ((undo (applyAll op s (front.map f)) (f x)).1 = 0 → get s (f x) = old) := by
  have hmem : ∀ c ∈ front, f c ∈ (front ++ [x]).map f :=
    fun c hc => List.mem_map_of_mem (List.mem_append_left [x] hc)
  have hfront : (front.map f).Nodup := by
    rw [List.map_append, List.nodup_append] at hnd
    exact hnd.1
  have hokf : ∀ a ∈ front.map f, (op s a).1 = 0 := by
    intro a ha
    obtain ⟨c, hc, rfl⟩ := List.mem_map.mp ha
    exact hok c hc
  have hget := h.set_back hu hs hfront hokf hnd
  constructor
  · intro hall
    refine ⟨fun c hc => ?_, fun hyes => ?_⟩
    · rw [← hall (f c), hget, if_pos ⟨hmem c hc, hback c hc⟩]
    · rw [← hall (f x), hget, if_pos ⟨by simp, hyes⟩]
  · intro ⟨hold, hx⟩ a
    rw [hget]
    split_ifs with hau hf
    · obtain ⟨c, hc, rfl⟩ := List.mem_map.mp hau.1
      rcases List.mem_append.mp hc with hc | hc
      · exact (hold c hc).symm
      · obtain rfl := List.mem_singleton.mp hc
        exact (hx hau.2).symm
    · obtain ⟨c, hc, rfl⟩ := List.mem_map.mp hf
      exact absurd ⟨hmem c hc, hback c hc⟩ hau
    · rfl

end SetBack

end Rollback
