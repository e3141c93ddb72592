import Gusto.Lib.Told
import Gusto.Order.Placement

/-!
# All requests of the order service, interleaved

Any requests to execute, to confirm, to poll and to ask about orders, whose calls interleave and may fail, over
a table with any rows.

* `Later`: what stays of a row; `OrderRequest.prog`: what the routes do;
* `RequestContract`: what each call asks of the table, and what lasts of each answer;
* `rowsLast`: no request changes whose an order is or what it is for, and none makes it wait for its user again; of
  an answer the decision lasts, if not the status;
* `callsBacked`: money moves, messages are sent and food is ordered for orders of the table only, as their rows say,
  and money moves only for orders that no longer wait for their user.
-/

set_option autoImplicit false

namespace Gusto.Order

open Effects OrderService

/-! ### The routes -/

/-- Whether the user has confirmed the order, as far as its status tells. -/
def ConfirmationGateService.isConfirmed (orderId : ℕ) : OrderProg Bool := do
  let some order ← Prisma.findUnique orderId | throw (.http 404 s!"no order {orderId}")
  return decide (order.status ≠ .PENDING_CONFIRMATION)

/-- A request about orders. -/
inductive OrderRequest
  | call (c : OrderCall)
  | pollDelivery (orderId : ℕ)
  | status (orderId : ℕ)
  | isConfirmed (orderId : ℕ)
  deriving DecidableEq, Repr

inductive OrderAnswer
  | moved (reply : OrderReply)
  | polled (reply : PollReply)
  | status (reply : StatusReply)
  | confirmed (answer : Bool)
  deriving DecidableEq, Repr

def OrderRequest.prog : OrderRequest → OrderProg OrderAnswer
  | .call c => OrderAnswer.moved <$> c.prog
  | .pollDelivery orderId => OrderAnswer.polled <$> pollDeliveryStatus orderId
  | .status orderId => OrderAnswer.status <$> getStatus orderId
  | .isConfirmed orderId => OrderAnswer.confirmed <$> ConfirmationGateService.isConfirmed orderId

abbrev RequestPool : Type := Pool OrderRequest OrderOp OrderOp.Answer Err OrderAnswer World
abbrev RequestNote : Type := Note OrderRequest World OrderOp Choice

/-- A thread for each request. -/
def requesting (requests : List OrderRequest) (w : World) : RequestPool := Pool.start OrderRequest.prog requests w

/-! ### Rows that last -/

/-- It has been placed, or has failed; its user is not waited for. -/
abbrev OrderStatus.Decided (status : OrderStatus) : Prop := status ≠ .PENDING_CONFIRMATION

theorem decided_PLACED : OrderStatus.PLACED.Decided := by decide
theorem decided_FAILED : OrderStatus.FAILED.Decided := by decide
theorem decided_DELIVERED : OrderStatus.DELIVERED.Decided := by decide

/-- The row `order'` is the row `order` at some later time. -/
structure Later (order order' : OrderRow) : Prop where
  id : order'.id = order.id
  userId : order'.userId = order.userId
  cart : order'.cart = order.cart
  savings : order'.savingsAchieved = order.savingsAchieved
  decided : order.status.Decided → order'.status.Decided
  ref : order.swiggyOrderRef ≠ none → order'.swiggyOrderRef ≠ none
  placedAt : order.placedAt ≠ none → order'.placedAt ≠ none
  deliveredAt : order.deliveredAt ≠ none → order'.deliveredAt ≠ none

theorem Later.refl (order : OrderRow) : Later order order :=
  ⟨rfl, rfl, rfl, rfl, fun h => h, fun h => h, fun h => h, fun h => h⟩

theorem Later.trans {a b c : OrderRow} (h : Later a b) (h' : Later b c) : Later a c where
  id := h'.id.trans h.id
  userId := h'.userId.trans h.userId
  cart := h'.cart.trans h.cart
  savings := h'.savings.trans h.savings
  decided hd := h'.decided (h.decided hd)
  ref hr := h'.ref (h.ref hr)
  placedAt hp := h'.placedAt (h.placedAt hp)
  deliveredAt hd := h'.deliveredAt (h.deliveredAt hd)

theorem ne_none_orElse {α : Type} {a b : Option α} (h : b ≠ none) : (a <|> b) ≠ none := by
  cases a with
  | none => exact h
  | some a => exact Option.some_ne_none a

/-- A write that does not ask for the confirmation again. -/
theorem later_write {data : OrderUpdate} (order : OrderRow) (h : data.status.Decided) :
    Later order (data.write order) :=
  ⟨rfl, rfl, rfl, rfl, fun _ => h, ne_none_orElse, ne_none_orElse, ne_none_orElse⟩

/-- The same write to a row and to a later one. -/
theorem Later.write {order order' : OrderRow} (h : Later order order') (data : OrderUpdate) :
    Later (data.write order) (data.write order') := by
  have horElse {α : Type} (a : Option α) {b b' : Option α} (hb : b ≠ none → b' ≠ none) :
      (a <|> b) ≠ none → (a <|> b') ≠ none := by
    cases a with
    | none => exact hb
    | some a => exact fun _ => Option.some_ne_none a
  exact ⟨h.id, h.userId, h.cart, h.savings, fun hd => hd, horElse _ h.ref, horElse _ h.placedAt, horElse _ h.deliveredAt⟩

/-- No row goes, and each is a later one of what it was. -/
def Last (t t' : Orders) : Prop := ∀ id order, t.get? id = some order → ∃ order', t'.get? id = some order' ∧
  Later order order'

theorem Last.refl (t : Orders) : Last t t := fun _ order h => ⟨order, h, .refl order⟩

theorem Last.trans {t t' t'' : Orders} (h : Last t t') (h' : Last t' t'') : Last t t'' := by
  intro id order ho
  obtain ⟨order', ho', hlater⟩ := h id order ho
  obtain ⟨order'', ho'', hlater'⟩ := h' id order' ho'
  exact ⟨order'', ho'', hlater.trans hlater'⟩

theorem last_wrote {t t' : Orders} {id : ℕ} {order : OrderRow} {data : OrderUpdate}
    (h : Orders.Wrote t t' id order data) (hdata : data.status.Decided) : Last t t' := by
  intro id' order' ho'
  rw [h.get?]
  by_cases hid : id' = id
  · obtain rfl : order = order' := Option.some.inj (h.1.symm.trans (hid ▸ ho'))
    rw [if_pos hid]
    exact ⟨_, rfl, later_write order hdata⟩
  · rw [if_neg hid]
    exact ⟨order', ho', .refl order'⟩

theorem last_create {t : Orders} {data : OrderCreate} : Last t (t.create data) :=
  fun _ order h => ⟨order, Orders.get?_create.mpr (.inl h), .refl order⟩

/-! ### The contract -/

/-- What the table says of a call before it is made: there is a row as the call has it. -/
def Backed (t : Orders) : OrderOp → Prop
  | .create data => data.status = .PENDING_CONFIRMATION ∧ data.cart.finalTotal < MAX_ORDER_TOTAL_PAISE
  | .update id data => data.status.Decided ∧ ∃ order, t.get? id = some order
  | .reserve _ amount => amount < MAX_ORDER_TOTAL_PAISE
  | .capture userId amount | .release userId amount => ∃ id order, t.get? id = some order ∧
      order.status.Decided ∧ order.userId = userId ∧ order.cart.finalTotal = amount
  | .food (.place_food_order addressId paymentMethod) userId => ∃ id order, t.get? id = some order ∧
      order.userId = userId ∧ order.cart.addressId = addressId ∧
      order.cart.paymentMethod.filter (· ≠ "") = paymentMethod
  | .food (.track_food_order ref) userId => ref ≠ "" ∧ ∃ id order, t.get? id = some order ∧
      order.userId = userId ∧ order.swiggyOrderRef ≠ none
  | .requestConfirmation userId id => ∃ order, t.get? id = some order ∧ order.userId = userId
  | .publishOrderPlaced event => ∃ order, t.get? event.orderId = some order ∧ order.status.Decided ∧
      order.userId = event.userId ∧ order.cart.toOptimizedCart = event.cart ∧ order.swiggyOrderRef ≠ none
  | .publishOrderFailed userId id _ => ∃ order, t.get? id = some order ∧ order.status.Decided ∧
      order.userId = userId
  | .publishOrderDelivered userId id => ∃ order, t.get? id = some order ∧ order.status.Decided ∧
      order.userId = userId ∧ order.deliveredAt ≠ none
  | _ => True

/-- What lasts of the answer to a request: whose the order is and what it is for, that it has been decided, though not
how, and which of its reference and its times it has. -/
def Told (t : Orders) : OrderRequest → OrderAnswer → Prop
  | .call (.execute userId addressId restaurantId cart paymentMethod), .moved reply =>
    ∃ order, t.get? reply.orderId = some order ∧ order.userId = userId ∧
      order.cart = { cart with addressId, restaurantId, paymentMethod }
  | .call (.confirm orderId), .moved reply => reply.orderId = orderId ∧ ∃ order,
      t.get? orderId = some order ∧ order.status.Decided ∧ order.swiggyOrderRef ≠ none ∧ order.placedAt ≠ none
  | .pollDelivery orderId, .polled reply => reply.orderId = orderId ∧ ∃ order, t.get? orderId = some order ∧
      order.swiggyOrderRef ≠ none ∧ (reply.status.Decided → order.status.Decided)
  | .status orderId, .status reply => reply.orderId = orderId ∧ ∃ order, t.get? orderId = some order ∧
      (reply.status.Decided → order.status.Decided) ∧ (reply.swiggyOrderRef ≠ none → order.swiggyOrderRef ≠ none) ∧
      (reply.deliveredAt ≠ none → order.deliveredAt ≠ none)
  | .isConfirmed orderId, .confirmed answer => ∃ order, t.get? orderId = some order ∧
      (answer = true → order.status.Decided)
  | _, _ => False

def RequestContract : Contract OrderRequest OrderOp Err OrderAnswer World Choice where
  inv _ _ := True
  rely w w' := Last w.orders w'.orders
  pre _ _ op _ w := Backed w.orders op
  post _ request r _ w :=
    match r with
    | .ok answer => Told w.orders request answer
    | .error _ => True

/-- Calls that do not write to the table. -/
theorem last_exec {c : Choice} {op : OrderOp} {w : World} (h : op.isUpdate = false)
    (h' : ∀ data, op ≠ .create data) : Last w.orders (exec c op w).2.orders := by
  rw [orders_exec c w h h']
  exact Last.refl w.orders

/-- **A call** that is backed keeps the rows. -/
theorem requestContract_sound : RequestContract.Sound exec where
  refl w := Last.refl w.orders
  trans _ _ _ h h' := Last.trans h h'
  step os w tid request op c _ hpre := by
    refine ⟨trivial, ?_⟩
    cases op with
    | update id data =>
      rcases exec_update c id data w with ⟨order, t, he, hwrote⟩ | ⟨e, he⟩
      · rw [he]
        exact last_wrote hwrote hpre.1
      · rw [he]
        exact Last.refl w.orders
    | create data =>
      rcases exec_create c data w with ⟨-, e, he⟩ | ⟨-, -, he⟩
      · rw [he]
        exact Last.refl w.orders
      · rw [he]
        exact last_create
    | _ => exact last_exec rfl (by simp)

/-! ### Programs that keep to it -/

/-- What a part of a request promises of the table `t`, when it began with `t₀`. -/
def Promise {α : Type} (P : α → Orders → Prop) (t₀ t : Orders) (r : Except Err α) : Prop :=
  Last t₀ t ∧ ∀ a, r = .ok a → P a t

/-- The contract of a part of a request that begins with the table `t₀`. -/
abbrev PartOf {α : Type} (P : α → Orders → Prop) (t₀ : Orders) :
    Contract OrderRequest OrderOp Err α World Choice :=
  RequestContract.withPost fun _ _ r _ w => Promise P t₀ w.orders r

/-- From the state `w` on the program meets its part of the contract, whatever happens before its calls. -/
def Keeps {α : Type} (P : α → Orders → Prop) (p : OrderProg α) (w : World) : Prop :=
  ∀ tid request os, p.Meets (PartOf P w.orders) exec tid request os w

section Rules

variable {α β : Type} {P : α → Orders → Prop} {Q : β → Orders → Prop} {w : World}

/-- A part that begins later. -/
theorem Keeps.since {p : OrderProg α} {w' : World} (h : Keeps P p w') (hlast : Last w.orders w'.orders) (tid : ℕ)
    (request : OrderRequest) (os : List RequestNote) : p.Meets (PartOf P w.orders) exec tid request os w' :=
  Prog.Meets.of_post (h tid request os) fun _ _ _ hp => ⟨hlast.trans hp.1, hp.2⟩

theorem keeps_throw (e : Err) : Keeps P (.throw e) w :=
  fun _ _ _ _ _ _ hlast => ⟨hlast, fun _ h => by cases h⟩

theorem keeps_ret {a : α} (h : ∀ t, Last w.orders t → P a t) : Keeps P (.ret a) w := by
  intro _ _ _ _ w' _ hlast
  refine ⟨hlast, fun a' ha => ?_⟩
  cases ha
  exact h w'.orders hlast

/-- A call: it is backed, and what comes back lasts. -/
theorem keeps_call {i : OrderOp} {P : i.Answer → Orders → Prop} (h : ∀ w', Last w.orders w'.orders →
      Backed w'.orders i ∧ ∀ c a w'', exec c i w' = (.ok a, w'') → ∀ t, Last w''.orders t → P a t) :
    Keeps P (Prog.await i) w := by
  intro tid request os os' w' _ hlast _
  obtain ⟨hbacked, hnext⟩ := h w' hlast
  refine ⟨hbacked, fun c => ?_⟩
  have hstep : Last w'.orders (exec c i w').2.orders :=
    (requestContract_sound.step os' w' tid request i c trivial hbacked).2
  cases hres : (exec c i w').1 with
  | ok a =>
    have hret : Keeps P (.ret a) (exec c i w').2 := keeps_ret (hnext c a _ (Prod.ext hres rfl))
    exact hret.since (hlast.trans hstep) tid request _
  | error e => exact (keeps_throw e).since (hlast.trans hstep) tid request _

theorem keeps_bind {p : OrderProg β} {f : β → OrderProg α} (hp : Keeps Q p w)
    (hf : ∀ a w', Last w.orders w'.orders → Q a w'.orders → Keeps P (f a) w') : Keeps P (p >>= f) w := by
  intro tid request os
  refine Prog.Meets.bind (fun w => Last.refl w.orders) (hp tid request os) (fun a os' w' _ ha => ?_)
    fun e os' w' he => ?_
  · exact (hf a w' ha.1 (ha.2 a rfl)).since ha.1 tid request os'
  · exact (keeps_throw e).since he.1 tid request os'

/-- A part that is tried. -/
theorem keeps_attempt {p : OrderProg β} {f : Except Err β → OrderProg α} (hp : Keeps Q p w)
    (hok : ∀ a w', Last w.orders w'.orders → Q a w'.orders → Keeps P (f (.ok a)) w')
    (herr : ∀ e w', Last w.orders w'.orders → Keeps P (f (.error e)) w') : Keeps P (p.attempt >>= f) w := by
  intro tid request os
  refine Prog.Meets.attempt_bind (fun w => Last.refl w.orders) (hp tid request os) fun r os' w' _ hr => ?_
  cases r with
  | ok a => exact (hok a w' hr.1 (hr.2 a rfl)).since hr.1 tid request os'
  | error e => exact (herr e w' hr.1).since hr.1 tid request os'

/-- A call and what is done with what comes back, as a tree. -/
theorem keeps_tree {i : OrderOp} {Q : i.Answer → Orders → Prop} {k : Except Err i.Answer → OrderProg α}
    (hp : Keeps Q (Prog.await i) w) (hok : ∀ a w', Last w.orders w'.orders → Q a w'.orders → Keeps P (k (.ok a)) w')
    (herr : ∀ e w', Last w.orders w'.orders → Keeps P (k (.error e)) w') : Keeps P (.call i k) w := by
  have htree : ((Prog.await i : OrderProg i.Answer).attempt >>= k) = .call i k := by
    refine congrArg (Prog.call i) (funext fun r => ?_)
    cases r <;> rfl
  rw [← htree]
  exact keeps_attempt hp hok herr

/-- A call whose answer says nothing of the table. -/
theorem keeps_backed {i : OrderOp} (h : ∀ t, Last w.orders t → Backed t i) :
    Keeps (fun _ _ => True) (Prog.await i) w :=
  keeps_call fun w' hlast => ⟨h w'.orders hlast, fun _ _ _ _ _ _ => trivial⟩

/-- A call whose failure is ignored. -/
theorem keeps_tried {i : OrderOp} {f : Except Err i.Answer → OrderProg α}
    (h : ∀ t, Last w.orders t → Backed t i) (hf : ∀ r w', Last w.orders w'.orders → Keeps P (f r) w') :
    Keeps P ((Prog.await i : OrderProg i.Answer).attempt >>= f) w :=
  keeps_attempt (keeps_backed h) (fun a w' hlast _ => hf (.ok a) w' hlast) fun e w' hlast => hf (.error e) w' hlast

end Rules

/-! ### The requests -/

section Requests

variable {α : Type} {P : α → Orders → Prop} {w : World} {order : OrderRow}

/-- The table has the row, or what has become of it. -/
def Has (t : Orders) (order : OrderRow) : Prop := ∃ order', t.get? order.id = some order' ∧ Later order order'

theorem Has.later {t t' : Orders} (h : Has t order) (hlast : Last t t') : Has t' order := by
  obtain ⟨order', ho', hlater⟩ := h
  obtain ⟨order'', ho'', hlater'⟩ := hlast _ _ ho'
  exact ⟨order'', ho'', hlater.trans hlater'⟩

/-- What is read is there. -/
theorem keeps_findUnique (id : ℕ) : Keeps (fun row t => ∀ order, row = some order → order.id = id ∧ Has t order)
    (Prisma.findUnique id) w := by
  refine keeps_call fun w' hlast => ⟨trivial, fun c row w'' hres t ht order hrow => ?_⟩
  subst hrow
  rcases exec_findUnique c id w' with ⟨e, he⟩ | he
  · rw [he] at hres
    cases hres
  · rw [he] at hres
    obtain ⟨hget, rfl⟩ := Prod.mk.injEq _ _ _ _ ▸ hres
    have hrow : w'.orders.get? id = some order := Except.ok.inj hget
    have hid := w'.orders.id_eq id order hrow
    exact ⟨hid, Has.later ⟨order, by rw [hid]; exact hrow, .refl order⟩ ht⟩

/-- A write that decides leaves the row it is about decided, with what it writes. -/
theorem keeps_update {data : OrderUpdate} (hdata : data.status.Decided) (h : Has w.orders order) :
    Keeps (fun updated t => updated.status = data.status ∧ Has t (data.write order)) (Prisma.update order.id data) w := by
  refine keeps_call fun w' hlast => ⟨⟨hdata, ?_⟩, fun c updated w'' hres t ht => ?_⟩
  · obtain ⟨order', ho', -⟩ := h.later hlast
    exact ⟨order', ho'⟩
  · rcases exec_update c order.id data w' with ⟨row, t', he, hwrote⟩ | ⟨e, he⟩
    · rw [he] at hres
      cases hres
      obtain ⟨order', ho', hlater⟩ := h.later hlast
      obtain rfl : row = order' := Option.some.inj (hwrote.1.symm.trans ho')
      refine ⟨rfl, Has.later ⟨data.write row, ?_, hlater.write data⟩ ht⟩
      rw [hwrote.get?]
      exact if_pos rfl
    · rw [he] at hres
      cases hres

theorem keeps_markFailed (h : Has w.orders order) (reason : String) :
    Keeps P (markFailed order order.cart reason) w := by
  refine keeps_bind (keeps_update decided_FAILED h) fun updated w₁ _ hrow => ?_
  refine keeps_tried (fun t ht => ?_) fun r w₂ ht₂ => ?_
  · obtain ⟨order', ho', hlater⟩ := hrow.2.later ht
    exact ⟨_, order', ho', hlater.decided decided_FAILED, hlater.userId, by rw [hlater.cart]; rfl⟩
  · refine keeps_bind (keeps_backed fun t ht => ?_) fun _ _ _ _ => keeps_throw _
    obtain ⟨order', ho', hlater⟩ := hrow.2.later (ht₂.trans ht)
    exact ⟨order', ho', hlater.decided decided_FAILED, hlater.userId⟩

theorem keeps_markPlaced (h : Has w.orders order) (ref : String) :
    Keeps (fun reply t => Told t (.call (.confirm order.id)) (.moved reply)) (markPlaced order order.cart ref) w := by
  refine keeps_bind (keeps_backed fun _ _ => trivial) fun placedAt w₁ h₁ _ => ?_
  refine keeps_bind (keeps_update decided_PLACED (h.later h₁)) fun updated w₂ _ hrow => ?_
  refine keeps_tried (fun t ht => ?_) fun r w₃ h₃ => ?_
  · obtain ⟨order', ho', hlater⟩ := hrow.2.later ht
    exact ⟨_, order', ho', hlater.decided decided_PLACED, hlater.userId, by rw [hlater.cart]; rfl⟩
  · refine keeps_bind (keeps_backed fun t ht => ?_) fun _ w₄ h₄ _ => keeps_ret fun t ht => ?_
    · obtain ⟨order', ho', hlater⟩ := hrow.2.later (h₃.trans ht)
      exact ⟨order', ho', hlater.decided decided_PLACED, hlater.userId, by rw [hlater.cart]; rfl,
        hlater.ref (Option.some_ne_none ref)⟩
    · obtain ⟨order', ho', hlater⟩ := hrow.2.later (h₃.trans (h₄.trans ht))
      exact ⟨rfl, order', ho', hlater.decided decided_PLACED, hlater.ref (Option.some_ne_none ref),
        hlater.placedAt (Option.some_ne_none placedAt)⟩

/-- **`confirmAndPlace`.** -/
theorem keeps_confirmAndPlace (id : ℕ) :
    Keeps (fun reply t => Told t (.call (.confirm id)) (.moved reply)) (confirmAndPlace id) w := by
  refine keeps_bind (keeps_findUnique id) fun row w₁ _ hrow => ?_
  cases row with
  | none => exact keeps_throw _
  | some order =>
    obtain ⟨rfl, h⟩ := hrow order rfl
    change Keeps _ (if order.status ≠ .PENDING_CONFIRMATION then _ else _) w₁
    split
    · exact keeps_throw _
    · refine keeps_attempt (Q := fun _ _ => True) (keeps_backed fun t ht => ?_) (fun result w₂ h₂ _ => ?_)
        fun e w₂ h₂ => ?_
      · obtain ⟨order', ho', hlater⟩ := h.later ht
        exact ⟨_, order', ho', hlater.userId, by rw [hlater.cart], by rw [hlater.cart]⟩
      · change Keeps _ (if result.success then _ else _) w₂
        split
        · cases (result.data.bind (·.orderId)) <|> (result.data.bind (·.order_id)) with
          | some ref => exact keeps_markPlaced (h.later h₂) ref
          | none =>
            refine keeps_bind (keeps_backed fun _ _ => trivial) fun ref w₃ h₃ _ => ?_
            exact keeps_markPlaced (h.later (h₂.trans h₃)) ref
        · exact keeps_markFailed (h.later h₂) _
      · refine keeps_attempt (Q := fun _ _ => True) (keeps_backed fun _ _ => trivial) (fun orders w₃ h₃ _ => ?_)
          fun e w₃ h₃ => ?_
        · exact keeps_markFailed (h.later (h₂.trans h₃)) _
        · exact keeps_markFailed (h.later (h₂.trans h₃)) _

/-- The cart is filled: no call of it is about a row. -/
theorem keeps_populate (userId addressId restaurantId : String) (cart : OptimizedCart) :
    Keeps (fun _ _ => True) (populate userId addressId restaurantId cart) w := by
  refine keeps_bind (keeps_backed fun _ _ => trivial) fun _ w₁ _ _ => ?_
  have hlook {w : World} : Keeps (fun _ _ => True) (food (.get_food_cart addressId) userId >>= fun _ => pure ()) w :=
    keeps_bind (keeps_backed fun _ _ => trivial) fun _ _ _ _ => keeps_ret fun _ _ => trivial
  cases cart.coupon with
  | none => exact hlook
  | some couponCode => exact keeps_bind (keeps_backed fun _ _ => trivial) fun _ _ _ _ => hlook

theorem keeps_create {data : OrderCreate} (h : data.status = .PENDING_CONFIRMATION ∧
      data.cart.finalTotal < MAX_ORDER_TOTAL_PAISE) :
    Keeps (fun order t => Has t order ∧ order.userId = data.userId ∧ order.cart = data.cart) (Prisma.create data) w := by
  refine keeps_call fun w' _ => ⟨h, fun c order w'' hres t ht => ?_⟩
  rcases exec_create c data w' with ⟨-, e, he⟩ | ⟨-, -, he⟩
  · rw [he] at hres
    cases hres
  · rw [he] at hres
    cases hres
    exact ⟨Has.later ⟨_, Orders.get?_newRow _ _, .refl _⟩ ht, rfl, rfl⟩

/-- What follows once the row is there. -/
theorem keeps_afterCreate {userId : String} (h : Has w.orders order) (huser : order.userId = userId) :
    Keeps (fun reply t => ∃ order', t.get? reply.orderId = some order' ∧ order'.userId = userId ∧
      order'.cart = order.cart) (afterCreate userId order.cart order) w := by
  refine keeps_attempt (keeps_populate userId _ _ _) (fun _ w₁ h₁ _ => ?_) fun e w₁ h₁ => ?_
  · refine keeps_attempt (Q := fun _ _ => True) ?_ (fun _ w₂ h₂ _ => keeps_ret fun t ht => ?_)
      fun e w₂ h₂ => keeps_ret fun t ht => ?_
    · refine keeps_tried (fun t ht => ?_) fun _ _ _ => keeps_ret fun _ _ => trivial
      obtain ⟨order', ho', hlater⟩ := (h.later h₁).later ht
      exact ⟨order', ho', hlater.userId.trans huser⟩
    · obtain ⟨order', ho', hlater⟩ := h.later (h₁.trans (h₂.trans ht))
      exact ⟨order', ho', hlater.userId.trans huser, hlater.cart⟩
    · obtain ⟨order', ho', hlater⟩ := h.later (h₁.trans (h₂.trans ht))
      exact ⟨order', ho', hlater.userId.trans huser, hlater.cart⟩
  · exact keeps_markFailed (h.later h₁) _

/-- **`populateAndAwaitConfirmation`.** -/
theorem keeps_populateAndAwaitConfirmation (userId addressId restaurantId : String) (cart : OptimizedCart)
    (paymentMethod : Option String) :
    Keeps (fun reply t => Told t (.call (.execute userId addressId restaurantId cart paymentMethod)) (.moved reply))
      (populateAndAwaitConfirmation userId addressId restaurantId cart paymentMethod) w := by
  rw [populateAndAwaitConfirmation_eq]
  by_cases hmax : MAX_ORDER_TOTAL_PAISE ≤ cart.finalTotal
  · rw [if_pos hmax]
    exact keeps_throw _
  · rw [if_neg hmax]
    have hlt : cart.finalTotal < MAX_ORDER_TOTAL_PAISE := not_le.mp hmax
    refine keeps_tree (keeps_backed fun _ _ => hlt) (fun _ w₁ _ _ => ?_) fun e w₁ _ => keeps_throw _
    refine keeps_tree (keeps_create ⟨rfl, hlt⟩) (fun order w₂ _ hrow => ?_) fun e w₂ _ => keeps_throw _
    obtain ⟨hhas, huser, hcart⟩ := hrow
    have hafter := keeps_afterCreate hhas huser
    rwa [hcart] at hafter

/-- **`pollDeliveryStatus`.** -/
theorem keeps_pollDeliveryStatus (id : ℕ) :
    Keeps (fun reply t => Told t (.pollDelivery id) (.polled reply)) (pollDeliveryStatus id) w := by
  refine keeps_bind (keeps_findUnique id) fun row w₁ _ hrow => ?_
  cases row with
  | none => exact keeps_throw _
  | some order =>
    obtain ⟨rfl, h⟩ := hrow order rfl
    cases href : order.swiggyOrderRef.filter (· ≠ "") with
    | none =>
      simp only [href]
      exact keeps_throw _
    | some ref =>
      simp only [href]
      obtain ⟨hsome, hne⟩ := Option.filter_eq_some_iff.mp href
      have hnone : order.swiggyOrderRef ≠ none := by
        rw [hsome]
        exact Option.some_ne_none ref
      refine keeps_bind (Q := fun _ _ => True) (keeps_backed fun t ht => ?_) fun tracked w₂ h₂ _ => ?_
      · obtain ⟨order', ho', hlater⟩ := h.later ht
        exact ⟨of_decide_eq_true hne, _, order', ho', hlater.userId, hlater.ref hnone⟩
      · split
        · refine keeps_bind (keeps_backed fun _ _ => trivial) fun deliveredAt w₃ h₃ _ => ?_
          refine keeps_bind (keeps_update decided_DELIVERED (h.later (h₂.trans h₃))) fun updated w₄ _ hrow => ?_
          refine keeps_bind (keeps_backed fun t ht => ?_) fun _ w₅ h₅ _ => keeps_ret fun t ht => ?_
          · obtain ⟨order', ho', hlater⟩ := hrow.2.later ht
            exact ⟨order', ho', hlater.decided decided_DELIVERED, hlater.userId,
              hlater.deliveredAt (Option.some_ne_none deliveredAt)⟩
          · obtain ⟨order', ho', hlater⟩ := hrow.2.later (h₅.trans ht)
            exact ⟨rfl, order', ho', hlater.ref hnone, fun _ => hlater.decided decided_DELIVERED⟩
        · refine keeps_ret fun t ht => ?_
          obtain ⟨order', ho', hlater⟩ := h.later (h₂.trans ht)
          exact ⟨rfl, order', ho', hlater.ref hnone, hlater.decided⟩

theorem keeps_getStatus (id : ℕ) : Keeps (fun reply t => Told t (.status id) (.status reply)) (getStatus id) w := by
  refine keeps_bind (keeps_findUnique id) fun row w₁ _ hrow => ?_
  cases row with
  | none => exact keeps_throw _
  | some order =>
    obtain ⟨rfl, h⟩ := hrow order rfl
    refine keeps_ret fun t ht => ?_
    obtain ⟨order', ho', hlater⟩ := h.later ht
    exact ⟨rfl, order', ho', hlater.decided, hlater.ref, hlater.deliveredAt⟩

theorem keeps_isConfirmed (id : ℕ) : Keeps (fun answer t => Told t (.isConfirmed id) (.confirmed answer))
    (ConfirmationGateService.isConfirmed id) w := by
  refine keeps_bind (keeps_findUnique id) fun row w₁ _ hrow => ?_
  cases row with
  | none => exact keeps_throw _
  | some order =>
    obtain ⟨rfl, h⟩ := hrow order rfl
    refine keeps_ret fun t ht => ?_
    obtain ⟨order', ho', hlater⟩ := h.later ht
    exact ⟨order', ho', fun hd => hlater.decided (of_decide_eq_true hd)⟩

/-- This much stays true of the table. -/
theorem Told.later {t t' : Orders} {request : OrderRequest} {answer : OrderAnswer} (h : Told t request answer)
    (hlast : Last t t') : Told t' request answer := by
  cases request with
  | call c =>
    cases c with
    | execute userId addressId restaurantId cart paymentMethod =>
      cases answer with
      | moved reply =>
        obtain ⟨order, ho, huser, hcart⟩ := h
        obtain ⟨order', ho', hlater⟩ := hlast _ _ ho
        exact ⟨order', ho', hlater.userId.trans huser, hlater.cart.trans hcart⟩
      | _ => exact h.elim
    | confirm id =>
      cases answer with
      | moved reply =>
        obtain ⟨hid, order, ho, hdecided, href, hplaced⟩ := h
        obtain ⟨order', ho', hlater⟩ := hlast _ _ ho
        exact ⟨hid, order', ho', hlater.decided hdecided, hlater.ref href, hlater.placedAt hplaced⟩
      | _ => exact h.elim
  | pollDelivery id =>
    cases answer with
    | polled reply =>
      obtain ⟨hid, order, ho, href, hdecided⟩ := h
      obtain ⟨order', ho', hlater⟩ := hlast _ _ ho
      exact ⟨hid, order', ho', hlater.ref href, fun hd => hlater.decided (hdecided hd)⟩
    | _ => exact h.elim
  | status id =>
    cases answer with
    | status reply =>
      obtain ⟨hid, order, ho, hdecided, href, hdelivered⟩ := h
      obtain ⟨order', ho', hlater⟩ := hlast _ _ ho
      exact ⟨hid, order', ho', fun hd => hlater.decided (hdecided hd), fun hr => hlater.ref (href hr),
        fun hd => hlater.deliveredAt (hdelivered hd)⟩
    | _ => exact h.elim
  | isConfirmed id =>
    cases answer with
    | confirmed answer =>
      obtain ⟨order, ho, hdecided⟩ := h
      obtain ⟨order', ho', hlater⟩ := hlast _ _ ho
      exact ⟨order', ho', fun hd => hlater.decided (hdecided hd)⟩
    | _ => exact h.elim

/-- **A request** keeps to the contract. -/
theorem keeps_prog (request : OrderRequest) : Keeps (fun answer t => Told t request answer) request.prog w := by
  cases request with
  | call c =>
    cases c with
    | execute userId addressId restaurantId cart paymentMethod =>
      exact keeps_bind (keeps_populateAndAwaitConfirmation userId addressId restaurantId cart paymentMethod)
        fun _ _ _ h => keeps_ret fun _ ht => h.later ht
    | confirm id => exact keeps_bind (keeps_confirmAndPlace id) fun _ _ _ h => keeps_ret fun _ ht => h.later ht
  | pollDelivery id => exact keeps_bind (keeps_pollDeliveryStatus id) fun _ _ _ h => keeps_ret fun _ ht => h.later ht
  | status id => exact keeps_bind (keeps_getStatus id) fun _ _ _ h => keeps_ret fun _ ht => h.later ht
  | isConfirmed id => exact keeps_bind (keeps_isConfirmed id) fun _ _ _ h => keeps_ret fun _ ht => h.later ht

end Requests

/-! ### Runs -/

section Runs

variable {requests : List OrderRequest} {w : World}

theorem requesting_meets : (requesting requests w).Meets RequestContract exec [] := by
  refine Pool.Meets.start trivial fun tid request _ => ?_
  refine (keeps_prog request tid request []).of_post fun r _ w' h => ?_
  cases r with
  | ok answer => exact h.2 answer rfl
  | error e => trivial

/-- **Rows last.** Whatever requests are interleaved, and whatever fails: no row is lost or changes its user, its
cart or its savings, none that has been decided waits for its user again, and none loses its reference or a time
that it has.  The same of what was answered: an order that was executed, confirmed or answered to be decided is
there at the end, for the same user and cart, decided, and with the reference and the times that it had; whether it
has been placed or has failed may have changed. -/
theorem rowsLast (requests : List OrderRequest) (w : World) (P : RequestPool) (os : List RequestNote)
    (hr : Run (Pool.step exec) anyStep (requesting requests w) P os) :
    Last w.orders P.state.orders ∧
    (∀ o ∈ os, Last w.orders o.event.pre.orders ∧ Last o.event.pre.orders P.state.orders) ∧
    ∀ th ∈ P.threads, ∀ answer, th.prog = .ret answer → Told P.state.orders th.tag answer := by
  obtain ⟨hmeets, hlast, hbefore⟩ := Contract.run requestContract_sound requesting_meets hr
  refine ⟨hlast, fun o ho => ⟨hbefore o ho, ?_⟩, fun th hth answer hret => ?_⟩
  · obtain ⟨pre, post, rfl⟩ := List.append_of_mem ho
    exact (Contract.run_at requestContract_sound requesting_meets hr).2.2
  · obtain ⟨tid, hget⟩ := List.mem_iff_getElem?.mp hth
    have hthread := hmeets.2 tid th hget
    rw [hret] at hthread
    exact hthread.of_ret requestContract_sound

/-- **Every call is backed.** Whatever requests are interleaved, and whatever fails: an order is made to wait for
its user only when it is created, below the limit; food is ordered, money is captured and released, and messages
are sent for an order of the table, for its user, with its cart and its amount; and money is captured or released,
and an order announced as placed, failed or delivered, only once it has been decided. -/
theorem callsBacked (requests : List OrderRequest) (w : World) (P : RequestPool) (os : List RequestNote)
    (hr : Run (Pool.step exec) anyStep (requesting requests w) P os) :
    ∀ o ∈ os, Backed o.event.pre.orders o.event.call := by
  intro o ho
  obtain ⟨pre, post, rfl⟩ := List.append_of_mem ho
  exact (Contract.run_at requestContract_sound requesting_meets hr).2.1

end Runs

/-- Two confirmations, both of which read the order as pending, and a question in between. -/
def twoConfirmations : List OrderRequest := [.call (.confirm 0), .call (.confirm 0), .isConfirmed 0]

/-- The first places the order, the second takes it for failed. -/
def crossing : List (ℕ × Choice) :=
  [(0, {}), (1, {}), (0, {}), (0, { uuid := "ref-1" }), (0, {}), (0, {}), (2, {}),
    (1, { error := some (.error "timeout") }), (1, {}), (1, {}), (0, {}), (1, {})]

theorem rowsLast_crossing : ∃ P os, Run (Pool.step exec) anyStep (requesting twoConfirmations oneOrder) P os ∧
    P.state.status 0 = some .FAILED ∧ Told P.state.orders (.isConfirmed 0) (.confirmed true) := by
  have hr := Run.of_runSteps .nil (show runSteps (Pool.step exec) anyStep crossing
    (requesting twoConfirmations oneOrder) [] = some (_, _) from rfl)
  exact ⟨_, _, hr, rfl, (rowsLast twoConfirmations oneOrder _ _ hr).2.2 ⟨.isConfirmed 0, .ret (.confirmed true)⟩
    (.tail _ (.tail _ (.head _))) (.confirmed true) rfl⟩

theorem callsBacked_crossing : ∃ P os, Run (Pool.step exec) anyStep (requesting twoConfirmations oneOrder) P os ∧
    os.length = 12 ∧ ∀ o ∈ os, Backed o.event.pre.orders o.event.call := by
  have hr := Run.of_runSteps .nil (show runSteps (Pool.step exec) anyStep crossing
    (requesting twoConfirmations oneOrder) [] = some (_, _) from rfl)
  exact ⟨_, _, hr, rfl, callsBacked twoConfirmations oneOrder _ _ hr⟩

end Gusto.Order
