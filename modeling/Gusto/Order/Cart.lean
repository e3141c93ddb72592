import Gusto.Order.Outcome

/-!
# The cart that is placed

Swiggy keeps one cart for a user at an address, and `place_food_order` orders what it holds, while
several orders of the user may be pending.

* `PlacesOwn`: what is placed for an order is what is stored with it;
* `placesOwn_iff`: where the gateway always succeeds, this holds of a run exactly when the last call
  before each placement that touched the cart filled it with the goods of that order;
* `not_placesOwn`: it fails where another order was populated in between.
-/

set_option autoImplicit false

namespace Gusto.Order

open Effects OrderService

/-! ### What is asked -/

/-- The items and the coupon a cart is about. -/
def goods (cart : OptimizedCart) : SwiggyCart := { items := cart.items, coupon := cart.coupon }

/-- When the order is placed, Swiggy's cart holds its items and its coupon. -/
def PlacesOwn (o : OrderNote) : Prop :=
  ∀ id, o.1 = .confirm id → ∀ e ∈ o.2.events, e.call.isPlace → ∀ order,
    e.pre.orders.get? id = some order →
      e.pre.carts order.userId order.cart.addressId = goods order.cart.toOptimizedCart

/-- Every call to the gateway succeeds. -/
def GatewayOk (o : OrderNote) : Prop :=
  ∀ e ∈ o.2.events, e.call.isFood → e.choice.error = none ∧ e.choice.response.success = true

/-! ### The condition -/

def OrderOp.isUpdateCart : OrderOp → Bool
  | .food (.update_food_cart _ _ _) _ => true
  | _ => false

/-- It places the cart of the user at the address. -/
def OrderOp.placesAt (u a : String) : OrderOp → Bool
  | .food (.place_food_order addressId _) userId => userId = u && addressId = a
  | _ => false

/-- What a call leaves in the cart of the user at the address, if it touches it: the goods it fills it
with, or nothing once they are placed. -/
def leaves (u a : String) (o : OrderNote) : Option SwiggyCart :=
  match o.1 with
  | .execute userId addressId _ cart _ =>
    if userId = u ∧ addressId = a ∧ o.2.events.any (·.call.isUpdateCart) then some (goods cart)
    else none
  | .confirm _ => if o.2.events.any (·.call.placesAt u a) then some {} else none

/-- What the last call that touched the cart left in it. -/
def lastLeft (u a : String) (os : List OrderNote) : Option SwiggyCart :=
  os.foldl (fun left o => leaves u a o <|> left) none

/-- The last call before `o` that touched the cart filled it with the goods of the order that `o`
places; where none has, they are in it from the start. -/
def FilledFor (w₀ : World) (os : List OrderNote) (o : OrderNote) : Prop :=
  ∀ id, o.1 = .confirm id → ∀ e ∈ o.2.events, e.call.isPlace → ∀ order,
    e.pre.orders.get? id = some order →
      (lastLeft order.userId order.cart.addressId os).getD
        (w₀.carts order.userId order.cart.addressId) = goods order.cart.toOptimizedCart

theorem lastLeft_snoc (u a : String) (os : List OrderNote) (o : OrderNote) :
    lastLeft u a (os ++ [o]) = (leaves u a o <|> lastLeft u a os) := by
  simp [lastLeft, List.foldl_append]

/-! ### One call -/

/-- Writing a status and closing a hold leaves the carts alone. -/
theorem carts_settled {id : ℕ} {data : OrderUpdate} {close publish : OrderOp} {w w' : World}
    {evs : List OrderEvent} (hs : Settled id data close publish w evs w')
    (hclose : close.isFood = false) (hpub : publish.isFood = false) :
    w'.carts = w.carts ∧ ∀ e ∈ evs, e.call.isFood = false := by
  cases hs with
  | refused c e h => exact ⟨rfl, by simp [OrderOp.isFood]⟩
  | closed c c' c'' order t h hwrote =>
    refine ⟨?_, ?_⟩
    · rw [carts_exec c'' _ hpub, carts_exec c' _ hclose]
    · simp only [List.forall_mem_cons]
      exact ⟨rfl, hclose, hpub, by simp⟩

/-- Where the gateway succeeds, the tools all answer, and act on the cart one after the other. -/
theorem carts_fed {u : String} {tools : List FoodTool} {w w' : World} {evs : List OrderEvent}
    {r : Except Err Unit} (h : Fed u tools w evs r w')
    (hok : ∀ e ∈ evs, e.call.isFood → e.choice.error = none ∧ e.choice.response.success = true) :
    r = .ok () ∧ w'.carts = tools.foldl (fun carts tool => tool.effect u carts) w.carts := by
  induction h with
  | done w => exact ⟨rfl, rfl⟩
  | threw tool tools c e w h =>
    have := (hok _ (List.mem_singleton_self _) rfl).1
    rw [h] at this
    cases this
  | answered tool tools c w h evs r w' hrest ih =>
    obtain ⟨hr, hcarts⟩ := ih fun e he => hok e (List.mem_cons_of_mem _ he)
    have hsuccess := (hok _ (List.mem_cons_self ..) rfl).2
    refine ⟨hr, ?_⟩
    rw [hcarts, exec_food_ok h, if_pos hsuccess]
    rfl

/-- The tools of a population, on the cart they fill and on any other. -/
theorem foldl_populateTools (u a r : String) (cart : OptimizedCart) (carts : SwiggyCarts)
    (u' a' : String) :
    (populateTools a r cart).foldl (fun carts tool => tool.effect u carts) carts u' a' =
      if u = u' ∧ a = a' then goods cart else carts u' a' := by
  unfold populateTools goods
  by_cases hu : u = u'
  · subst hu
    by_cases ha : a = a'
    · subst ha
      cases cart.coupon <;> simp [FoodTool.effect]
    · cases cart.coupon <;> simp [FoodTool.effect, ha, Function.update_of_ne (Ne.symm ha)]
  · cases cart.coupon <;> simp [FoodTool.effect, hu, Function.update_of_ne (Ne.symm hu)]

theorem any_eq_false {evs : List OrderEvent} {p : OrderOp → Bool}
    (h : ∀ e ∈ evs, p e.call = false) : evs.any (fun e => p e.call) = false := by
  simpa using h

theorem placesAt_of_isFood {u a : String} {i : OrderOp} (h : i.isFood = false) :
    i.placesAt u a = false := by
  cases i <;> first | rfl | cases h

theorem placesAt_of_isAsk {u a : String} {i : OrderOp} (h : i.isAsk) : i.placesAt u a = false := by
  cases i with
  | food tool v => cases tool <;> first | rfl | cases h
  | _ => rfl

theorem carts_of_exec {c : Choice} {i : OrderOp} {w w' : World} {r : Except Err i.Answer}
    (h : exec c i w = (r, w')) (hi : i.isFood = false) : w'.carts = w.carts := by
  have := carts_exec c w hi
  rw [h] at this
  exact this

/-- `populateAndAwaitConfirmation` and the carts. -/
theorem carts_executed {u a r : String} {cart : OptimizedCart} {pm : Option String} {w w' : World}
    {evs : List OrderEvent} (h : Executed u a r cart pm w evs w')
    (hok : ∀ e ∈ evs, e.call.isFood → e.choice.error = none ∧ e.choice.response.success = true)
    (u' a' : String) :
    w'.carts u' a' =
      if u = u' ∧ a = a' ∧ evs.any (·.call.isUpdateCart) then goods cart else w.carts u' a' := by
  cases h with
  | tooBig h => simp
  | notReserved c e h => simp [OrderOp.isUpdateCart]
  | notCreated c c' w₁ h e h' => simp [OrderOp.isUpdateCart, carts_of_exec h rfl]
  | pending c c' c'' w₁ w₂ w₃ order h h' evs hfed =>
    have hw₂ : w₂.carts = w.carts := (carts_of_exec h' rfl).trans (carts_of_exec h rfl)
    obtain ⟨-, hcarts⟩ := carts_fed hfed fun e he hf => hok e (by simp [he]) hf
    have hany : evs.any (·.call.isUpdateCart) = true := by
      cases hfed with
      | answered tool tools c w h evs r w' hrest => rfl
    rw [hcarts, foldl_populateTools, hw₂]
    simp only [List.any_cons, List.any_append, hany, Bool.true_or, Bool.or_true, and_true]
  | failed c c' w₁ w₂ w₃ w₄ order h h' evs evs' e hfed hs =>
    obtain ⟨hr, -⟩ := carts_fed hfed fun e he hf => hok e (by simp [he]) hf
    cases hr

/-- `confirmAndPlace` and the carts. -/
theorem carts_confirmed {id : ℕ} {w w' : World} {evs : List OrderEvent} (h : Confirmed id w evs w')
    (hok : ∀ e ∈ evs, e.call.isFood → e.choice.error = none ∧ e.choice.response.success = true)
    (u a : String) :
    w'.carts u a = if evs.any (·.call.placesAt u a) then {} else w.carts u a := by
  cases h with
  | rejected c h => simp [OrderOp.placesAt]
  | placed c c' order hrow hst herr hsuccess evs w' hs =>
    obtain ⟨asks, rest, rfl, hasks, ref, placedAt, hs⟩ := hs
    obtain ⟨hcarts, hfood⟩ := carts_settled hs rfl rfl
    have hasks' : asks.any (·.call.placesAt u a) = false :=
      any_eq_false fun e he => placesAt_of_isAsk (hasks e he)
    have hrest' : rest.any (·.call.placesAt u a) = false :=
      any_eq_false fun e he => placesAt_of_isFood (hfood e he)
    have hplace : (placeCall order).placesAt u a =
        (decide (order.userId = u) && decide (order.cart.addressId = a)) := rfl
    have hfind : (OrderOp.findUnique id).placesAt u a = false := rfl
    rw [hcarts, exec_food_ok herr, if_pos hsuccess]
    simp only [List.any_cons, List.any_append, hasks', hrest', hplace, hfind, Bool.or_false,
      Bool.false_or, Bool.and_eq_true, decide_eq_true_eq, FoodTool.effect]
    by_cases hu : order.userId = u
    · subst hu
      by_cases ha : order.cart.addressId = a
      · subst ha
        simp
      · simp [ha, Function.update_of_ne (Ne.symm ha)]
    · simp [hu, Function.update_of_ne (Ne.symm hu)]
  | failed c c' order hrow hst hfail evs w' hs =>
    obtain ⟨herr, hsuccess⟩ := hok ⟨w, placeCall order, c'⟩ (by simp) rfl
    rcases hfail with h | h
    · exact absurd herr h
    · rw [hsuccess] at h
      cases h

theorem isPlace_of_isFood {i : OrderOp} (h : i.isFood = false) : i.isPlace = false := by
  cases i <;> first | rfl | cases h

theorem isPlace_of_isAsk {i : OrderOp} (h : i.isAsk) : i.isPlace = false := by
  cases i with
  | food tool v => cases tool <;> first | rfl | cases h
  | _ => rfl

theorem not_isPlace_of_asksThen {Q : List OrderEvent → World → Prop} {evs : List OrderEvent}
    {w' : World} (h : AsksThen Q evs w')
    (hQ : ∀ rest, Q rest w' → ∀ e ∈ rest, e.call.isFood = false) :
    ∀ e ∈ evs, e.call.isPlace = false := by
  obtain ⟨asks, rest, rfl, hasks, hs⟩ := h
  intro e he
  rcases List.mem_append.mp he with he | he
  · exact isPlace_of_isAsk (hasks e he)
  · exact isPlace_of_isFood (hQ rest hs e he)

/-- A confirmation reads its order, and if it places it, asks and settles afterwards. -/
theorem Confirmed.calls {id : ℕ} {w w' : World} {evs : List OrderEvent} (h : Confirmed id w evs w') :
    (∃ c, evs = [⟨w, .findUnique id, c⟩]) ∨
      ∃ c c' order rest, evs = ⟨w, .findUnique id, c⟩ :: ⟨w, placeCall order, c'⟩ :: rest ∧
        ∀ e ∈ rest, e.call.isPlace = false := by
  cases h with
  | rejected c h => exact .inl ⟨c, rfl⟩
  | placed c c' order hrow hst herr hsuccess evs w' hs =>
    refine .inr ⟨c, c', order, evs, rfl, not_isPlace_of_asksThen hs ?_⟩
    rintro rest ⟨ref, placedAt, h⟩
    exact (carts_settled h rfl rfl).2
  | failed c c' order hrow hst hfail evs w' hs =>
    refine .inr ⟨c, c', order, evs, rfl, not_isPlace_of_asksThen hs ?_⟩
    rintro rest ⟨reason, h⟩
    exact (carts_settled h rfl rfl).2

/-- The order is placed in the world the call found. -/
theorem pre_of_isPlace {id : ℕ} {w w' : World} {evs : List OrderEvent} (h : Confirmed id w evs w') :
    ∀ e ∈ evs, e.call.isPlace → e.pre = w := by
  intro e he hp
  rcases h.calls with ⟨c, rfl⟩ | ⟨c, c', order, rest, rfl, hrest⟩
  · rw [List.mem_singleton.mp he]
  · rcases List.mem_cons.mp he with rfl | he
    · rfl
    · rcases List.mem_cons.mp he with rfl | he
      · rfl
      · rw [hrest e he] at hp
        cases hp

/-- **One call and the carts.** It leaves in each cart what it is said to leave, or what was there. -/
theorem carts_call {w w' : World} {l : OrderCall × List Choice} {o : OrderNote}
    (h : orderStep w l = some (w', o)) (hok : GatewayOk o) (u a : String) :
    w'.carts u a = (leaves u a o).getD (w.carts u a) := by
  obtain ⟨hrun, ho, rfl⟩ := callStep_eq_some.mp h
  obtain ⟨call, cs⟩ := l
  obtain ⟨call', d⟩ := o
  cases ho
  cases call with
  | execute u' a' r cart pm =>
    rw [carts_executed (executed_of_run hrun) hok]
    simp only [leaves]
    split <;> rfl
  | confirm id =>
    rw [carts_confirmed (confirmed_of_run hrun) hok]
    simp only [leaves]
    split <;> rfl

/-! ### Runs -/

/-- **What the carts hold.** After a run, what the last call that touched them left. -/
theorem carts_run {w₀ w : World} {os : List OrderNote} (hrun : Run orderStep anyStep w₀ w os)
    (hok : ∀ o ∈ os, GatewayOk o) (u a : String) :
    w.carts u a = (lastLeft u a os).getD (w₀.carts u a) := by
  refine hrun.invariant_of_forall hok
    (fun os w => ∀ u a, w.carts u a = (lastLeft u a os).getD (w₀.carts u a)) (fun u a => rfl) ?_ u a
  intro os w l w' o hI hok hs u a
  rw [carts_call hs hok, lastLeft_snoc, hI]
  cases leaves u a o <;> rfl

/-- **When what is placed is what was approved.** Where the gateway always succeeds, in any run of
whole calls, each placement is of the goods stored with its order exactly when the last call before it
that touched the cart filled it with those goods. -/
theorem placesOwn_iff {w₀ w : World} {os : List OrderNote} (hrun : Run orderStep anyStep w₀ w os)
    (hok : ∀ o ∈ os, GatewayOk o) :
    (∀ o ∈ os, PlacesOwn o) ↔ ∀ pre o post, os = pre ++ o :: post → FilledFor w₀ pre o := by
  have hcarts : ∀ pre o post, os = pre ++ o :: post → (PlacesOwn o ↔ FilledFor w₀ pre o) := by
    intro pre o post hos
    obtain ⟨w₁, ⟨call, cs⟩, w₂, hr, -, hs, -⟩ := hrun.split hos
    obtain ⟨hcall, ho, -⟩ := callStep_eq_some.mp hs
    have hpre := carts_run hr fun o ho => hok o (by rw [hos]; simp [ho])
    unfold PlacesOwn FilledFor
    refine forall_congr' fun id => forall_congr' fun hid => ?_
    rw [hid] at ho
    subst ho
    have hplace := pre_of_isPlace (confirmed_of_run hcall)
    refine forall_congr' fun e => forall_congr' fun he => forall_congr' fun hp =>
      forall_congr' fun order => forall_congr' fun _ => ?_
    rw [hplace e he hp, hpre]
  constructor
  · intro h pre o post hos
    exact (hcarts pre o post hos).mp (h o (by simp [hos]))
  · intro h o ho
    obtain ⟨pre, post, hos⟩ := List.append_of_mem ho
    exact (hcarts pre o post hos).mpr (h pre o post hos)

/-! ### With and without another order in between -/

/-- A user with 1000 paise and no orders. -/
def shopper : World where
  wallets := fun _ => some
    { totalDeposited := 1000, currentBalance := 1000, daysLeft := 30, dailyAvgLimit := 33 }

/-- The cart with one item, for 250 paise. -/
def cartOf (itemId : String) : OptimizedCart :=
  { items := [⟨itemId, 1⟩], baseCost := 250, finalTotal := 250 }

/-- An order of `itemId`, with no coupon. -/
def ordering (itemId : String) : OrderCall × List Choice :=
  (.execute "user-1" "addr-1" "rest-1" (cartOf itemId) none, [{}, {}, {}, {}, {}])

/-- The confirmation of an order. -/
def confirmation (id : ℕ) (ref : String) : OrderCall × List Choice :=
  (.confirm id, [{}, {}, { uuid := ref }, {}, {}, {}, {}])

/-- An order that is confirmed before the next one is populated. -/
theorem placesOwn_iff_inTurn :
    ∃ w os, runSteps orderStep anyStep [ordering "idli", confirmation 0 "ref-1"] shopper [] =
        some (w, os) ∧
      ((∀ o ∈ os, PlacesOwn o) ↔
        ∀ pre o post, os = pre ++ o :: post → FilledFor shopper pre o) := by
  have hsteps : runSteps orderStep anyStep [ordering "idli", confirmation 0 "ref-1"] shopper [] =
    some (_, _) := rfl
  exact ⟨_, _, hsteps, placesOwn_iff (Run.of_runSteps .nil hsteps) (by unfold GatewayOk; decide)⟩

/-- Two orders are populated, then the first is confirmed: it is paid for and the second is placed. -/
theorem not_placesOwn :
    ¬ ∀ (w₀ w : World) os, Run orderStep anyStep w₀ w os → (∀ o ∈ os, GatewayOk o) →
      ∀ o ∈ os, PlacesOwn o := by
  intro h
  have hsteps : runSteps orderStep anyStep
    [ordering "idli", ordering "dosa", confirmation 0 "ref-1"] shopper [] = some (_, _) := rfl
  have hown := h _ _ _ (Run.of_runSteps .nil hsteps) (by unfold GatewayOk; decide) _
    (List.mem_of_getLast? rfl) 0 rfl _ (List.mem_cons_of_mem _ (List.mem_cons_self ..)) rfl _ rfl
  exact absurd hown (by decide)

end Gusto.Order
