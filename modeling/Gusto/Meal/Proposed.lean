import Gusto.Meal.Approved
import Gusto.Workflow.Swaps

/-!
# What is approved was proposed

* `Proposal`: what stands behind a shortlist and a cart: a menu that was fetched for the user with the dish on it, the
  budget of the user, the cart that coupon-optimization-service has answered for the dish, and the ranking of a scout;
* `RowSourced`: a row has the addresses of a scout, and its shortlist and its cart come from one proposal;
* `orderedProposal`: in every interleaving of the two services, each order that is sent, and each that is placed, is
  for the cart of a proposal, and goes to the addresses of a scout.
-/

set_option autoImplicit false

namespace Gusto.Meal

open Effects Workflow.WorkflowService
open Gusto.Workflow (WorkflowOp WorkflowCall WorkflowReply WorkflowRow WorkflowStates WorkflowProg WorkflowUpdate RowId
  ShortlistState ExecuteOrderRequest)

/-! ### Proposals -/

/-- A thread of the workflow was answered so. -/
abbrev Replied (os : List MealNote) (tid : ℕ) (userId : String) (call : WorkflowCall) (i : WorkflowOp)
    (answer : i.Answer) : Prop :=
  Answered exec os tid (.workflow userId call) (.workflow i) (.ok answer)

/-- The dish was on a menu that was fetched for the user, and the cart is what coupon-optimization-service has
answered for it, asked with the daily limit of the user as the budget: all in one request. -/
def Optimized (os : List MealNote) (userId : String) (item : MenuItem) (cart : OptimizedCart) : Prop :=
  ∃ tid call addressId restaurantId response subscription,
    Replied os tid userId call (.get_restaurant_menu addressId restaurantId userId) response ∧
    item ∈ parseMenu restaurantId response ∧
    Replied os tid userId call (.getSubscription userId) subscription ∧
    Replied os tid userId call (.optimizeCart
      { userId, restaurantId, addressId,
        cartItems := [{ itemId := item.itemId, price := item.price, quantity := 1 }],
        remainingDailyBudget := subscription.dailyAvgLimit }) cart

/-- ai-agent-service has ranked so for a scout of the user. -/
def Ranked (os : List MealNote) (userId : String) (rankedItems : List RankedMenuItem) : Prop :=
  ∃ tid addressId restaurantId request,
    Replied os tid userId (.runScoutPhase addressId restaurantId) (.analyze request) rankedItems

/-- A scout of the user for these addresses has written them down. -/
def ScoutedFor (os : List MealNote) (userId addressId restaurantId : String) : Prop :=
  ∃ tid day row, Replied os tid userId (.runScoutPhase addressId restaurantId)
    (.upsert ⟨userId, day⟩ addressId restaurantId) row

/-- What stands behind a shortlist and a cart. -/
structure Proposal (os : List MealNote) (userId : String) (shortlist : ShortlistState) (cart : OptimizedCart) :
    Prop where
  optimized : Optimized os userId shortlist.currentItem cart
  ranked : Ranked os userId shortlist.rankedItems
  listed : shortlist.currentItem.itemId ∈ shortlist.rankedItems.map (·.itemId)

section Later

variable {os os' : List MealNote} {userId : String}

theorem Ranked.later {rankedItems : List RankedMenuItem} (h : Ranked os userId rankedItems) (hos : os <+: os') :
    Ranked os' userId rankedItems := by
  obtain ⟨tid, addressId, restaurantId, request, h⟩ := h
  exact ⟨tid, addressId, restaurantId, request, h.later hos⟩

theorem ScoutedFor.later {addressId restaurantId : String} (h : ScoutedFor os userId addressId restaurantId)
    (hos : os <+: os') : ScoutedFor os' userId addressId restaurantId := by
  obtain ⟨tid, day, row, h⟩ := h
  exact ⟨tid, day, row, h.later hos⟩

theorem Proposal.later {shortlist : ShortlistState} {cart : OptimizedCart} (h : Proposal os userId shortlist cart)
    (hos : os <+: os') : Proposal os' userId shortlist cart := by
  obtain ⟨tid, call, addressId, restaurantId, response, subscription, hmenu, hitem, hbudget, hcart⟩ := h.optimized
  exact ⟨⟨tid, call, addressId, restaurantId, response, subscription, hmenu.later hos, hitem, hbudget.later hos,
    hcart.later hos⟩, h.ranked.later hos, h.listed⟩

end Later

/-! ### The rows -/

/-- A row has the addresses of a scout; it has no shortlist and no cart, or both from one proposal, and both where it
awaits approval. -/
structure RowSourced (os : List MealNote) (id : RowId) (row : WorkflowRow) : Prop where
  addressed : ∃ addressId restaurantId, row.addressId = some addressId ∧ row.restaurantId = some restaurantId ∧
    ScoutedFor os id.userId addressId restaurantId
  proposed : row.shortlist = none ∧ row.optimizedCart = none ∨ ∃ shortlist cart, row.shortlist = some shortlist ∧
    row.optimizedCart = some cart ∧ Proposal os id.userId shortlist cart
  awaiting : row.phase = .AWAITING_APPROVAL → row.optimizedCart ≠ none

/-- An update writes no shortlist and no cart and does not ask for approval, or it writes down a proposal. -/
def Writes (os : List MealNote) (userId : String) (data : WorkflowUpdate) : Prop :=
  data.phase ≠ .AWAITING_APPROVAL ∧ data.shortlist = none ∧ data.optimizedCart = none ∨
    ∃ shortlist cart, data.shortlist = some shortlist ∧ data.optimizedCart = some cart ∧
      Proposal os userId shortlist cart

/-- What is asked of a call: an update writes down what was proposed, and addresses are written down by a scout that
was asked for with them. -/
def Proposes (tag : MealCall) (os : List MealNote) : MealOp → Prop
  | .workflow (.upsert id addressId restaurantId) =>
    tag = .workflow id.userId (.runScoutPhase addressId restaurantId)
  | .workflow (.update id data) => Writes os id.userId data
  | _ => True

def ProposalContract : Contract MealCall MealOp Err MealAnswer MealState MealChoice where
  inv os s := ∀ id row, s.rows id = some row → RowSourced os id row
  rely _ _ := True
  pre _ tag op os _ := Proposes tag os op
  post _ _ _ _ _ := True

section Rows

variable {os os' : List MealNote} {id : RowId} {row : WorkflowRow}

theorem RowSourced.later (h : RowSourced os id row) (hos : os <+: os') : RowSourced os' id row := by
  obtain ⟨addressId, restaurantId, haddress, hrestaurant, hscouted⟩ := h.addressed
  refine ⟨⟨addressId, restaurantId, haddress, hrestaurant, hscouted.later hos⟩, ?_, h.awaiting⟩
  rcases h.proposed with hnone | ⟨shortlist, cart, hshortlist, hcart, hproposal⟩
  · exact .inl hnone
  · exact .inr ⟨shortlist, cart, hshortlist, hcart, hproposal.later hos⟩

/-- What an update leaves. -/
theorem RowSourced.write {data : WorkflowUpdate} (h : RowSourced os id row) (hdata : Writes os id.userId data) :
    RowSourced os id (data.write row) := by
  refine ⟨h.addressed, ?_, ?_⟩
  · rcases hdata with ⟨-, hshortlist, hcart⟩ | ⟨shortlist, cart, hshortlist, hcart, hproposal⟩
    · simp only [WorkflowUpdate.write, hshortlist, hcart]
      exact h.proposed
    · exact .inr ⟨shortlist, cart, by simp [WorkflowUpdate.write, hshortlist],
        by simp [WorkflowUpdate.write, hcart], hproposal⟩
  · rcases hdata with ⟨hphase, -, -⟩ | ⟨shortlist, cart, -, hcart, -⟩
    · exact fun hawaiting => absurd hawaiting hphase
    · simp [WorkflowUpdate.write, hcart]

/-- What a scout leaves: the row has its addresses now. -/
theorem RowSourced.upsert {addressId restaurantId : String} {old : Option WorkflowRow}
    (hscouted : ScoutedFor os id.userId addressId restaurantId)
    (h : ∀ row, old = some row → RowSourced os id row) : RowSourced os id
      { old.getD { phase := .SCOUTING } with addressId := some addressId, restaurantId := some restaurantId } := by
  have haddressed : ∃ a r, some addressId = some a ∧ some restaurantId = some r ∧ ScoutedFor os id.userId a r :=
    ⟨addressId, restaurantId, rfl, rfl, hscouted⟩
  cases old with
  | none => exact ⟨haddressed, .inl ⟨rfl, rfl⟩, by simp⟩
  | some row => exact ⟨haddressed, (h row rfl).proposed, (h row rfl).awaiting⟩

end Rows

/-- The rows after a row was written. -/
theorem rowSourced_set {os : List MealNote} {t : WorkflowStates} {id : RowId} {row : WorkflowRow}
    (h : ∀ id row, t id = some row → RowSourced os id row) (hrow : RowSourced os id row) :
    ∀ id' row', Function.update t id (some row) id' = some row' → RowSourced os id' row' := by
  intro id' row' hid
  by_cases heq : id' = id
  · subst heq
    rw [Function.update_self] at hid
    cases hid
    exact hrow
  · rw [Function.update_of_ne heq] at hid
    exact h id' row' hid

/-- A scout whose write of the addresses is served. -/
theorem scoutedFor_of_served {os : List MealNote} {tid : ℕ} {s : MealState} {c : MealChoice} {id : RowId}
    {addressId restaurantId : String}
    (h : Workflow.exec c.today c.workflow (.upsert id addressId restaurantId) s.rows =
      Workflow.serve c.today c.workflow (.upsert id addressId restaurantId) s.rows) :
    ScoutedFor (os ++ [⟨tid, .workflow id.userId (.runScoutPhase addressId restaurantId),
      ⟨s, .workflow (.upsert id addressId restaurantId), c⟩⟩]) id.userId addressId restaurantId := by
  have hself : Answered exec (os ++ [⟨tid, .workflow id.userId (.runScoutPhase addressId restaurantId),
      ⟨s, .workflow (.upsert id addressId restaurantId), c⟩⟩]) tid
      (.workflow id.userId (.runScoutPhase addressId restaurantId)) (.workflow (.upsert id addressId restaurantId))
      (exec c (.workflow (.upsert id addressId restaurantId)) s).1 := answered_self
  have hok : (exec c (.workflow (.upsert id addressId restaurantId)) s).1 = .ok _ := congrArg Prod.fst h
  rw [hok] at hself
  exact ⟨tid, id.cycleDate, _, hself⟩

/-- **A call** that writes down what was proposed. -/
theorem proposalContract_sound : ProposalContract.Sound exec where
  refl _ := trivial
  trans _ _ _ _ _ := trivial
  step os s tid tag op c hinv hpre := by
    refine ⟨?_, trivial⟩
    have hlater := List.prefix_append os [(⟨tid, tag, ⟨s, op, c⟩⟩ : MealNote)]
    have hkept : ∀ id row, s.rows id = some row → RowSourced (os ++ [⟨tid, tag, ⟨s, op, c⟩⟩]) id row :=
      fun id row hid => (hinv id row hid).later hlater
    cases op with
    | workflow i =>
      change ∀ id row, (Workflow.exec c.today c.workflow i s.rows).2 id = some row → RowSourced _ id row
      rcases Workflow.exec_cases c.today c.workflow i s.rows with ⟨e, he⟩ | ⟨he, -⟩
      · rw [he]
        exact hkept
      · cases i with
        | upsert id addressId restaurantId =>
          obtain rfl : tag = .workflow id.userId (.runScoutPhase addressId restaurantId) := hpre
          rw [he]
          exact rowSourced_set hkept (.upsert (scoutedFor_of_served he) fun row hrow => hkept id row hrow)
        | update id data =>
          rw [he]
          simp only [Workflow.serve]
          cases hrow : s.rows id with
          | none => exact hkept
          | some row => exact rowSourced_set hkept (((hinv id row hrow).write hpre).later hlater)
        | _ =>
          rw [he]
          exact hkept
    | accept =>
      rcases exec_accept c s with ⟨request, -, he⟩ | he
      · rw [he]
        exact hkept
      · rw [he]
        exact hkept
    | order i => exact hkept

/-! ### What is known of the answers -/

/-- What the thread `tid` knows of an answer. -/
def Told (tid : ℕ) (tag : MealCall) (os : List MealNote) : (op : MealOp) → Except Err op.Answer → Prop
  | .workflow (.findUnique id), .ok (some row) => RowSourced os id row
  | .workflow i, .ok answer => Answered exec os tid tag (.workflow i) (.ok answer)
  | _, _ => True

section Told

variable {tid : ℕ} {tag : MealCall} {os os' : List MealNote}

theorem Told.later (hos : os <+: os') (op : MealOp) (r : Except Err op.Answer) (h : Told tid tag os op r) :
    Told tid tag os' op r := by
  cases op with
  | accept => cases r <;> trivial
  | order i => cases r <;> trivial
  | workflow i => cases r with
    | error e => cases i <;> trivial
    | ok a => cases i with
      | findUnique id => cases a with
        | none => exact Answered.later h hos
        | some row => exact RowSourced.later h hos
      | _ => exact Answered.later h hos

/-- **What is answered** is known. -/
theorem told_exec {s : MealState} (op : MealOp) (c : MealChoice)
    (hinv : ∀ id row, s.rows id = some row → RowSourced os id row) :
    Told tid tag (os ++ [⟨tid, tag, ⟨s, op, c⟩⟩]) op (exec c op s).1 := by
  cases op with
  | accept => cases (exec c .accept s).1 <;> trivial
  | order i => cases (exec c (.order i) s).1 <;> trivial
  | workflow i =>
    cases hres : (exec c (.workflow i) s).1 with
    | error e => cases i <;> trivial
    | ok a =>
      have hanswered : Answered exec (os ++ [⟨tid, tag, ⟨s, .workflow i, c⟩⟩]) tid tag (.workflow i) (.ok a) := by
        rw [← hres]
        exact answered_self
      cases i with
      | findUnique id => cases a with
        | none => exact hanswered
        | some row =>
          refine (hinv id row ?_).later (List.prefix_append _ _)
          change (Workflow.exec c.today c.workflow (.findUnique id) s.rows).1 = .ok (some row) at hres
          rcases Workflow.exec_cases c.today c.workflow (.findUnique id) s.rows with ⟨e, he⟩ | ⟨he, -⟩
          · rw [he] at hres
            cases hres
          · rw [he] at hres
            exact Except.ok.inj hres
      | _ => exact hanswered

end Told

/-! ### What the programs ask -/

section Programs

variable {tid : ℕ} {userId : String} {day : ℤ} {call : WorkflowCall} {os : List MealNote}

/-- The program writes down what was proposed only, by what the thread is answered. -/
abbrev WritesProposals (tid : ℕ) (userId : String) (call : WorkflowCall) (os : List MealNote) {α : Type}
    (p : WorkflowProg α) : Prop :=
  p.Asks (fun i => Told tid (.workflow userId call) os (.workflow i)) fun i =>
    Proposes (.workflow userId call) os (.workflow i)

/-- What is selected is on the menu, and ranked. -/
theorem mem_of_selected {menuItems : List MenuItem} {rankedItems : List RankedMenuItem}
    {rejectedItemIds : List String} {proposal : MenuItem}
    (h : selectNextCandidate menuItems rankedItems rejectedItemIds = some proposal) :
    proposal ∈ menuItems ∧ proposal.itemId ∈ rankedItems.map (·.itemId) := by
  obtain ⟨itemId, hmenu⟩ := Workflow.menuById_of_selected h
  exact ⟨List.mem_reverse.mp (List.mem_of_find?_eq_some hmenu), (Workflow.best_of_selected h).ranked.1⟩

theorem asks_storeProposal {menuItems : List MenuItem} {shortlist : ShortlistState} {rejectedItemIds : List String}
    {skipScoutCompleted : Bool} {cart : OptimizedCart} (h : Proposal os userId shortlist cart) :
    WritesProposals tid userId call os
      (storeProposal ⟨userId, day⟩ userId menuItems shortlist rejectedItemIds skipScoutCompleted cart) := by
  have hannounce {reply : WorkflowReply} :
      WritesProposals tid userId call os (announce userId menuItems cart reply) :=
    ⟨trivial, fun _ _ => ⟨trivial, fun _ _ => trivial⟩⟩
  rw [storeProposal_eq]
  refine ⟨.inr ⟨shortlist, cart, rfl, rfl, h⟩, fun r _ => ?_⟩
  rcases r with e | updated
  · trivial
  · dsimp only
    split
    · exact hannounce
    · exact ⟨trivial, fun _ _ => hannounce⟩

theorem asks_skip {β : Type} {shortlist : Option ShortlistState} {f : Workflow.SkipReply → β} :
    WritesProposals tid userId call os
      (skip ⟨userId, day⟩ userId shortlist >>= fun reply => .ret (f reply)) := by
  rw [skip_eq]
  refine ⟨.inl ⟨by simp, rfl, rfl⟩, fun r _ => ?_⟩
  rcases r with e | updated
  · trivial
  refine ⟨trivial, fun r _ => ?_⟩
  rcases r with e | _
  · trivial
  refine ⟨trivial, fun _ _ => ?_⟩
  cases shortlist <;> trivial

theorem asks_approved {addressId restaurantId : Option String} {cart : Option OptimizedCart}
    {shortlist : Option ShortlistState} :
    WritesProposals tid userId call os (approve ⟨userId, day⟩ userId addressId restaurantId cart shortlist) := by
  rw [approve_eq]
  refine ⟨.inl ⟨by simp, rfl, rfl⟩, fun r _ => ?_⟩
  rcases r with e | updated
  · trivial
  refine ⟨trivial, fun r _ => ?_⟩
  rcases r with e | order
  · trivial
  refine ⟨.inl ⟨by simp, rfl, rfl⟩, fun r _ => ?_⟩
  rcases r with e | updated
  · trivial
  · cases shortlist with
    | none => trivial
    | some shortlist => exact ⟨trivial, fun _ _ => trivial⟩

/-- **A scout** proposes a dish of the menu that it has fetched. -/
theorem asks_scout {addressId restaurantId : String} (hcall : call = .runScoutPhase addressId restaurantId) :
    WritesProposals tid userId call os (scout ⟨userId, day⟩ userId addressId restaurantId) := by
  subst hcall
  unfold scout
  refine ⟨rfl, fun r _ => ?_⟩
  rcases r with e | _
  · trivial
  refine ⟨trivial, fun r hbudget => ?_⟩
  rcases r with e | subscription
  · trivial
  refine ⟨trivial, fun r _ => ?_⟩
  rcases r with e | profile
  · trivial
  refine ⟨trivial, fun r hmenu => ?_⟩
  rcases r with e | response
  · trivial
  refine ⟨trivial, fun r hranked => ?_⟩
  rcases r with e | rankedItems
  · trivial
  dsimp only [afterAnalyze]
  cases hselected : selectNextCandidate (parseMenu (some restaurantId) response) rankedItems [] with
  | none => trivial
  | some proposal =>
    refine ⟨trivial, fun r hcart => ?_⟩
    rcases r with e | cart
    · trivial
    obtain ⟨hitem, hlisted⟩ := mem_of_selected hselected
    refine asks_storeProposal ⟨?_, ⟨tid, addressId, restaurantId, _, hranked⟩, hlisted⟩
    exact ⟨tid, _, some addressId, some restaurantId, response, subscription, hmenu, hitem, hbudget, hcart⟩

/-- **A SWAP** proposes a dish of the menu that it has fetched, by the ranking of the row. -/
theorem asks_swap {row : WorkflowRow} (hrow : RowSourced os ⟨userId, day⟩ row) {rejectedItemIds : List String} :
    WritesProposals tid userId call os
      (swap ⟨userId, day⟩ userId row.addressId row.restaurantId row.shortlist rejectedItemIds) := by
  cases hshortlist : row.shortlist with
  | none => trivial
  | some shortlist =>
    have hranked : Ranked os userId shortlist.rankedItems := by
      rcases hrow.proposed with ⟨hnone, -⟩ | ⟨shortlist', cart, hsome, -, hproposal⟩
      · rw [hnone] at hshortlist
        cases hshortlist
      · rw [hsome] at hshortlist
        cases hshortlist
        exact hproposal.ranked
    rw [swap_eq]
    refine ⟨trivial, fun r hmenu => ?_⟩
    rcases r with e | response
    · trivial
    dsimp only [afterSwapMenu]
    cases hselected : selectNextCandidate (parseMenu row.restaurantId response) shortlist.rankedItems
        (rejectedItemIds ++ [shortlist.currentItem.itemId]) with
    | none => exact asks_skip
    | some proposal =>
      refine ⟨trivial, fun r hbudget => ?_⟩
      rcases r with e | subscription
      · trivial
      refine ⟨trivial, fun r hcart => ?_⟩
      rcases r with e | cart
      · trivial
      obtain ⟨hitem, hlisted⟩ := mem_of_selected hselected
      refine asks_storeProposal ⟨?_, hranked, hlisted⟩
      exact ⟨tid, _, row.addressId, row.restaurantId, response, subscription, hmenu, hitem, hbudget, hcart⟩

/-- A handler reads the row of the day and goes on with it. -/
theorem asks_onRow {f : RowId → Option WorkflowRow → WorkflowProg WorkflowReply}
    (hnone : ∀ day, WritesProposals tid userId call os (f ⟨userId, day⟩ none))
    (hsome : ∀ day row, RowSourced os ⟨userId, day⟩ row →
      WritesProposals tid userId call os (f ⟨userId, day⟩ (some row))) :
    WritesProposals tid userId call os (onRow userId f) := by
  refine ⟨trivial, fun r _ => ?_⟩
  rcases r with e | date
  · trivial
  refine ⟨trivial, fun r hrow => ?_⟩
  rcases r with e | _ | row
  · trivial
  · exact hnone _
  · exact hsome _ row hrow

/-- **A handler** writes down what was proposed. -/
theorem asks_handler (tid : ℕ) (userId : String) (call : WorkflowCall) (os : List MealNote) :
    WritesProposals tid userId call os (call.prog userId) := by
  cases call with
  | runScoutPhase addressId restaurantId =>
    change WritesProposals tid userId _ os (runScoutPhase userId addressId restaurantId)
    rw [runScoutPhase_eq]
    refine asks_onRow (fun day => asks_scout rfl) fun day row _ => ?_
    dsimp only
    split
    · exact asks_scout rfl
    · trivial
  | handleUserDecision decision =>
    change WritesProposals tid userId _ os (handleUserDecision userId decision)
    rw [handleUserDecision_eq]
    refine asks_onRow (fun day => trivial) fun day row hrow => ?_
    dsimp only
    split
    · cases decision with
      | APPROVE => exact asks_approved
      | SKIP => exact asks_skip
      | SWAP => exact asks_swap hrow
    · trivial
  | sendReminderIfPending =>
    change WritesProposals tid userId _ os (sendReminderIfPending userId)
    rw [sendReminderIfPending_eq]
    refine asks_onRow (fun day => trivial) fun day row _ => ?_
    dsimp only
    split
    · exact ⟨trivial, fun _ _ => trivial⟩
    · trivial
  | finalizeIfPending =>
    change WritesProposals tid userId _ os (finalizeIfPending userId)
    rw [finalizeIfPending_eq]
    refine asks_onRow (fun day => trivial) fun day row _ => ?_
    dsimp only
    split
    · exact asks_skip
    · trivial

/-- **A request.** -/
theorem asks_request (tid : ℕ) (call : MealCall) (os : List MealNote) :
    call.prog.Asks (Told tid call os) (Proposes call os) := by
  have horder {α : Type} {f : α → MealAnswer} (p : Order.OrderProg α) :
      (f <$> onOrders p).Asks (Told tid call os) (Proposes call os) := by
    refine Prog.Asks.bind (Prog.Asks.renamed ?_) fun _ => trivial
    exact Prog.asks_of_forall fun _ => trivial
  cases call with
  | workflow userId call => exact Prog.Asks.bind (Prog.Asks.renamed (asks_handler tid userId call os)) fun _ => trivial
  | execute => exact Prog.Asks.await_bind trivial fun request _ => horder _
  | confirm orderId => exact horder _
  | pollDelivery orderId => exact horder _
  | status orderId => exact horder _

end Programs

/-! ### Runs -/

/-- The request of an order is the one that was approved, its addresses are those of a scout of the user, and its cart
is that of a proposal. -/
structure FromProposal (os : List MealNote) (request : ExecuteOrderRequest) : Prop where
  approved : Approved os request
  addressed : ∃ addressId restaurantId, request.addressId = some addressId ∧
    request.restaurantId = some restaurantId ∧ ScoutedFor os request.userId addressId restaurantId
  proposed : ∃ shortlist cart, request.cart = some cart ∧ Proposal os request.userId shortlist cart

section Runs

variable {calls : List MealCall} {w : Order.World} {P : MealPool} {os : List MealNote}

theorem serving_meetsProposals :
    (serving calls { rows := fun _ => none, orders := w }).Meets ProposalContract exec [] := by
  refine Pool.Meets.start (fun id row h => (by cases h)) fun tid call _ => ?_
  refine Prog.Meets.of_asks (K := Told tid call) (A := Proposes call) (fun os os' op r hos hr => hr.later hos op r)
    (fun os s op c hinv _ => told_exec op c hinv) (fun os s op _ hop => hop) (fun _ _ _ => trivial) fun os _ => ?_
  exact asks_request tid call os

/-- What was approved was proposed: its row was, when it was read. -/
theorem fromProposal_of_approved
    (hr : Run (Pool.step exec) anyStep (serving calls { rows := fun _ => none, orders := w }) P os)
    {request : ExecuteOrderRequest} (h : Approved os request) : FromProposal os request := by
  have happroved := h
  obtain ⟨id, row, ⟨o, ho, -, -, hread⟩, huser, hphase, haddress, hrestaurant, hcart⟩ := h
  obtain ⟨pre, post, rfl⟩ := List.append_of_mem ho
  have hinv := (Contract.run_at proposalContract_sound serving_meetsProposals hr).1
  have hrow : RowSourced pre id row := hinv id row hread
  refine ⟨happroved, ?_, ?_⟩
  · obtain ⟨addressId, restaurantId, ha, hr, hscouted⟩ := hrow.addressed
    refine ⟨addressId, restaurantId, haddress.trans ha, hrestaurant.trans hr, ?_⟩
    rw [← huser]
    exact hscouted.later (List.prefix_append pre _)
  · rcases hrow.proposed with ⟨-, hnone⟩ | ⟨shortlist, cart, -, hsome, hproposal⟩
    · exact absurd hnone (hrow.awaiting hphase)
    · refine ⟨shortlist, cart, hcart.trans hsome, ?_⟩
      rw [← huser]
      exact hproposal.later (List.prefix_append pre _)

/-- **What is ordered was proposed.** From tables with no rows, whatever requests of whatever users are interleaved,
and whatever fails: an order that the workflow sends has the addresses of a scout of the user, and its cart is what
coupon-optimization-service has answered, asked with the daily limit of the user as the budget, for a dish that was on
a menu fetched for the user and on a list that ai-agent-service has ranked for a scout of the user, and an APPROVE of
the user has read it as awaiting approval; and each order that is placed is such an order. -/
theorem orderedProposal (calls : List MealCall) (w : Order.World) (hw : w.orders.rows = []) (P : MealPool)
    (pre post : List MealNote) (o : MealNote)
    (hr : Run (Pool.step exec) anyStep (serving calls { rows := fun _ => none, orders := w }) P (pre ++ o :: post)) :
    (∀ request, o.event.call = .workflow (.executeOrder request) → FromProposal pre request) ∧
    ∀ addressId paymentMethod userId,
      o.event.call = .order (.food (.place_food_order addressId paymentMethod) userId) →
      ∃ request, request.userId = userId ∧ request.addressId = some addressId ∧ FromProposal pre request := by
  have hvouched := (Contract.run_at mealContract_sound (serving_meets (sourced_start hw)) hr).2.1
  obtain ⟨P₁, l, P₂, hr₁, -, -, -⟩ := hr.split rfl
  refine ⟨fun request hcall => ?_, fun addressId paymentMethod userId hcall => ?_⟩
  · change Vouched o.tag pre o.event.call at hvouched
    rw [hcall] at hvouched
    exact fromProposal_of_approved hr₁ hvouched.2
  · change Vouched o.tag pre o.event.call at hvouched
    rw [hcall] at hvouched
    obtain ⟨-, cart, ⟨-, happroved⟩, haddress, -⟩ := hvouched
    exact ⟨_, rfl, congrArg some haddress.symm, fromProposal_of_approved hr₁ happroved⟩

end Runs

/-- A dish of 250 paise, its menu, and a subscription. -/
def oneDish : Workflow.WorkflowChoice where
  subscription := ⟨1000, 1000, 300⟩
  menu := { categories := some [some [{ id := .value "item-1", name := .value "thali", price := .value 250 }]] }
  rankedItems := [{ itemId := "item-1", semanticTags := [], matchScore := 1 }]
  optimizedCart := { items := [⟨"item-1", 1⟩], baseCost := 250, finalTotal := 250 }

/-- The user is proposed a dish, approves, and confirms. -/
def wholeMeal : List MealCall := .workflow "user-1" (.runScoutPhase "addr-1" "rest-1") :: oneMeal

theorem orderedProposal_wholeMeal : ∃ P pre o, Run (Pool.step exec) anyStep
      (serving wholeMeal { rows := fun _ => none, orders := Order.someBalance }) P (pre ++ [o]) ∧
    o.event.call = .order (.food (.place_food_order "addr-1" none) "user-1") ∧
    ∃ request, request.userId = "user-1" ∧ FromProposal pre request := by
  have hr := Run.of_runSteps .nil (show runSteps (Pool.step exec) anyStep
    (List.replicate 12 (0, { workflow := oneDish }) ++ lateOrder.map fun l => (l.1 + 1, l.2))
    (serving wholeMeal { rows := fun _ => none, orders := Order.someBalance }) [] = some (_, _ ++ [_]) from rfl)
  obtain ⟨request, huser, -, hproposal⟩ :=
    (orderedProposal wholeMeal Order.someBalance rfl _ _ [] _ hr).2 "addr-1" none "user-1" rfl
  exact ⟨_, _, _, hr, rfl, request, huser, hproposal⟩

end Gusto.Meal
