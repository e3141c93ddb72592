import Gusto.Order.Service
import Mathlib.Algebra.Order.BigOperators.Group.List
import Mathlib.Algebra.Order.Ring.Rat
import Mathlib.Tactic.Ring

/-!
# The `orders` table

`Orders` carries what the database guarantees: the id of a row is its number, and no two rows have
one `swiggyOrderRef`.

* `Orders.create`, `Orders.update`: the writes Prisma makes;
* `Orders.get?_create`, `Orders.update_cases`, `Orders.Wrote.get?`: what is found after them;
* `Orders.total`: a sum over the rows.
-/

set_option autoImplicit false

namespace Gusto.Order

theorem id_eq_nil (id : ℕ) (order : OrderRow) (h : ([] : List OrderRow)[id]? = some order) : order.id = id := by
  simp at h

theorem ref_unique_nil : ∀ a ∈ ([] : List OrderRow), ∀ b ∈ ([] : List OrderRow), a.swiggyOrderRef ≠ none →
    a.swiggyOrderRef = b.swiggyOrderRef → a.id = b.id := fun _ h => absurd h List.not_mem_nil

/-- The `orders` table: a row's id is its number, and no two rows have one `swiggyOrderRef`. -/
structure Orders where
  rows : List OrderRow := []
  id_eq : ∀ (id : ℕ) (order : OrderRow), rows[id]? = some order → order.id = id := by exact id_eq_nil
  ref_unique : ∀ a ∈ rows, ∀ b ∈ rows, a.swiggyOrderRef ≠ none →
    a.swiggyOrderRef = b.swiggyOrderRef → a.id = b.id := by exact ref_unique_nil

namespace Orders

variable {t t' : Orders} {id : ℕ} {order : OrderRow} {data : OrderUpdate}

/-- `findUnique`. -/
def get? (t : Orders) (id : ℕ) : Option OrderRow := t.rows[id]?

/-- The row `create` adds. -/
def newRow (t : Orders) (data : OrderCreate) : OrderRow :=
  { id := t.rows.length, userId := data.userId, status := data.status, cart := data.cart,
    savingsAchieved := data.savingsAchieved.num }

theorem getElem?_concat {rows : List OrderRow} {order' : OrderRow} :
    (rows ++ [order'])[id]? = some order ↔
      rows[id]? = some order ∨ (id = rows.length ∧ order' = order) := by
  rcases lt_trichotomy id rows.length with h | rfl | h
  · rw [List.getElem?_append_left h]
    simp [Nat.ne_of_lt h]
  · simp
  · have h1 : (rows ++ [order'])[id]? = none :=
      List.getElem?_eq_none (by rw [List.length_append]; exact h)
    have h2 : rows[id]? = none := List.getElem?_eq_none (Nat.le_of_lt h)
    simp [h1, h2, Nat.ne_of_gt h]

/-- `create`. -/
def create (t : Orders) (data : OrderCreate) : Orders where
  rows := t.rows ++ [t.newRow data]
  id_eq id order h := by
    rcases getElem?_concat.mp h with h | ⟨rfl, rfl⟩
    · exact t.id_eq id order h
    · rfl
  ref_unique a ha b hb hne heq := by
    rcases List.mem_append.mp ha with ha | ha
    · rcases List.mem_append.mp hb with hb | hb
      · exact t.ref_unique a ha b hb hne heq
      · rw [List.mem_singleton.mp hb] at heq
        exact absurd heq hne
    · rw [List.mem_singleton.mp ha] at hne
      exact absurd rfl hne

/-- Another row has the `swiggyOrderRef` of the update. -/
def RefTaken (t : Orders) (id : ℕ) (data : OrderUpdate) : Prop :=
  data.swiggyOrderRef ≠ none ∧
    ∃ order ∈ t.rows, order.id ≠ id ∧ order.swiggyOrderRef = data.swiggyOrderRef

instance (t : Orders) (id : ℕ) (data : OrderUpdate) : Decidable (t.RefTaken id data) := by
  unfold RefTaken
  infer_instance

theorem mem_rows (h : t.get? id = some order) : order ∈ t.rows :=
  List.mem_of_getElem? h

theorem write_id : (data.write order).id = order.id := rfl

/-- The ref of a row after an update is the one that was written, or its own. -/
theorem write_ref :
    (data.write order).swiggyOrderRef = data.swiggyOrderRef ∧ data.swiggyOrderRef ≠ none ∨
      (data.write order).swiggyOrderRef = order.swiggyOrderRef := by
  cases h : data.swiggyOrderRef <;> simp [OrderUpdate.write, h]

/-- The row `order` of the table, updated. -/
def set (t : Orders) (order : OrderRow) (data : OrderUpdate) (h : order ∈ t.rows)
    (hfree : ¬ t.RefTaken order.id data) : Orders where
  rows := t.rows.set order.id (data.write order)
  id_eq id order' h' := by
    rw [List.getElem?_set] at h'
    split at h'
    · split at h'
      · cases h'
        rw [write_id]
        assumption
      · cases h'
    · exact t.id_eq id order' h'
  ref_unique a ha b hb hne heq := by
    -- a row other than the updated one cannot have the ref that was written
    have hother : ∀ c ∈ t.rows, c.swiggyOrderRef = (data.write order).swiggyOrderRef →
        (data.write order).swiggyOrderRef ≠ none → c.id = order.id := by
      intro c hc href hsome
      by_contra hid
      rcases @write_ref order data with ⟨hw, hd⟩ | hw
      · exact hfree ⟨hd, c, hc, hid, href.trans hw⟩
      · exact hid (t.ref_unique c hc order h (by rw [href]; exact hsome) (href.trans hw))
    rcases List.mem_or_eq_of_mem_set ha with ha | rfl
    · rcases List.mem_or_eq_of_mem_set hb with hb | rfl
      · exact t.ref_unique a ha b hb hne heq
      · exact hother a ha heq (heq ▸ hne)
    · rcases List.mem_or_eq_of_mem_set hb with hb | rfl
      · exact (hother b hb heq.symm hne).symm
      · rfl

/-- `update`, which refuses a row that is not there and a ref that is taken. -/
def update (t : Orders) (id : ℕ) (data : OrderUpdate) : Except String (OrderRow × Orders) :=
  match h : t.get? id with
  | none => .error "Record to update not found."
  | some order =>
    if hfree : t.RefTaken order.id data then
      .error "Unique constraint failed on the fields: (swiggy_order_ref)"
    else .ok (data.write order, t.set order data (mem_rows h) hfree)

theorem get?_create {data : OrderCreate} :
    (t.create data).get? id = some order ↔
      t.get? id = some order ∨ (id = t.rows.length ∧ t.newRow data = order) :=
  getElem?_concat

theorem get?_newRow (t : Orders) (data : OrderCreate) :
    (t.create data).get? (t.newRow data).id = some (t.newRow data) :=
  get?_create.mpr (.inr ⟨rfl, rfl⟩)

theorem get?_lt (h : t.get? id = some order) : id < t.rows.length :=
  (List.getElem?_eq_some_iff.mp h).1

theorem update_eq (h : t.get? id = some order) :
    t.update id data =
      if hfree : t.RefTaken order.id data then
        .error "Unique constraint failed on the fields: (swiggy_order_ref)"
      else .ok (data.write order, t.set order data (mem_rows h) hfree) := by
  unfold update
  split
  · rename_i hnone
    rw [h] at hnone
    cases hnone
  · rename_i order' h'
    cases h.symm.trans h'
    rfl

theorem rows_set (h : t.get? id = some order) (hfree : ¬ t.RefTaken order.id data) :
    (t.set order data (mem_rows h) hfree).rows = t.rows.set id (data.write order) := by
  obtain rfl := t.id_eq id order h
  rfl

/-- The rows of an updated table. -/
theorem get?_of_rows_set {id' : ℕ} {order' : OrderRow} (h : t.get? id = some order)
    (hrows : t'.rows = t.rows.set id order') :
    t'.get? id' = if id' = id then some order' else t.get? id' := by
  unfold get?
  rw [hrows, List.getElem?_set]
  split
  · subst_vars
    simp [get?_lt h]
  · rename_i hne
    simp [Ne.symm hne]

/-- The table `t'` is `t` with the row `id` written over. -/
def Wrote (t t' : Orders) (id : ℕ) (order : OrderRow) (data : OrderUpdate) : Prop :=
  t.get? id = some order ∧ t'.rows = t.rows.set id (data.write order)

theorem Wrote.get? (h : Wrote t t' id order data) (id' : ℕ) :
    t'.get? id' = if id' = id then some (data.write order) else t.get? id' :=
  get?_of_rows_set h.1 h.2

/-- **What an update does**: it writes the row, or it is refused. -/
theorem update_cases (t : Orders) (id : ℕ) (data : OrderUpdate) :
    (∃ order t', t.update id data = .ok (data.write order, t') ∧ Wrote t t' id order data) ∨
      ∃ e, t.update id data = .error e := by
  cases h : t.get? id with
  | none =>
    refine .inr ⟨"Record to update not found.", ?_⟩
    unfold update
    split
    · rfl
    · rename_i h'
      rw [h] at h'
      cases h'
  | some order =>
    rw [update_eq h]
    split
    · exact .inr ⟨_, rfl⟩
    · exact .inl ⟨order, _, rfl, h, rows_set h _⟩

/-- Without a ref to write, an update is refused only where the row is missing. -/
theorem update_of_no_ref (h : t.get? id = some order) (hd : data.swiggyOrderRef = none) :
    ∃ t', t.update id data = .ok (data.write order, t') ∧ Wrote t t' id order data := by
  rw [update_eq h, dif_neg fun htaken => htaken.1 hd]
  exact ⟨_, rfl, h, rows_set h _⟩

/-! ### Sums -/

/-- The sum of `f` over the rows. -/
def total (f : OrderRow → ℚ) (t : Orders) : ℚ := (t.rows.map f).sum

theorem total_create (f : OrderRow → ℚ) (t : Orders) (data : OrderCreate) :
    (t.create data).total f = t.total f + f (t.newRow data) := by
  simp [total, create]

theorem total_wrote (f : OrderRow → ℚ) (h : Wrote t t' id order data) :
    t'.total f = t.total f - f order + f (data.write order) := by
  obtain ⟨hlt, hget⟩ := List.getElem?_eq_some_iff.mp h.1
  unfold total
  rw [h.2, List.map_set, List.sum_set']
  simp only [List.length_map, hlt, dif_pos, List.getElem_map, hget]
  ring

/-- One row of a sum of parts that are not negative. -/
theorem le_total {f : OrderRow → ℚ} (hf : ∀ id order, t.get? id = some order → 0 ≤ f order)
    (h : t.get? id = some order) : f order ≤ t.total f := by
  refine List.single_le_sum (fun x hx => ?_) _ (List.mem_map_of_mem (mem_rows h))
  obtain ⟨order, ho, rfl⟩ := List.mem_map.mp hx
  obtain ⟨id, hid⟩ := List.mem_iff_getElem?.mp ho
  exact hf id order hid

end Orders

end Gusto.Order
