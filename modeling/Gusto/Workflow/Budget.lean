import Gusto.Workflow.Requests
import Gusto.Workflow.Swaps

/-!
# The budget of what is ordered

The optimiser answers a cart that is over the daily limit with a flag; the workflow stores it, puts it
up and orders it like any other.

* `BudgetState`: the table, and the input that the cart in the row of the day was optimised for;
* `BudgetNote.WithinBudget`: what a call sends to be ordered is within the budget of that input;
* `BudgetNote.Affords`: an APPROVE that goes on to order is of a dish that the daily limit affords;
* `withinBudget_iff`: in every run of a day these are the same;
* `not_withinBudget`: a thali above the limit, which is proposed, approved and ordered.
-/

set_option autoImplicit false

namespace Gusto.Workflow

open Effects WorkflowService

/-! ### What a cart was optimised for -/

/-- The table, and what the cart in the row of the day was optimised for. -/
structure BudgetState where
  table : WorkflowStates
  input : Option Hacker.OptimizationInput

/-- What the optimiser is asked by a scout, or by the SWAP of a row. -/
def Env.proposalRequest (env : Env) (userId : String) (before : Option WorkflowRow) :
    WorkflowCall → Option OptimizeCartRequest
  | .runScoutPhase addressId restaurantId =>
    (selectNextCandidate (env.menu userId (some addressId) (some restaurantId))
      (env.rankedItems userId addressId restaurantId) []).map
      (env.cartRequest userId (some addressId) (some restaurantId))
  | .handleUserDecision .SWAP =>
    before.bind fun row => row.shortlist.bind fun shortlist =>
      (selectNextCandidate (env.menu userId row.addressId row.restaurantId) shortlist.rankedItems
        (row.nextRejected shortlist)).map (env.cartRequest userId row.addressId row.restaurantId)
  | _ => none

/-- The input of the optimiser for a request, with the coupons and the fillers of the gateway. -/
def Services.optimizerInput (p : Platform) (services : Services) (request : OptimizeCartRequest) :
    Option Hacker.OptimizationInput :=
  (parseOptimizeCartRequest request).map (services.gateway.input p.number)

/-- The carts that are sent to be ordered. -/
def ordersIn {χ : Type} (events : List (Event WorkflowStates WorkflowOp χ)) :
    List ExecuteOrderRequest :=
  events.filterMap fun ev =>
    match ev.call with
    | .executeOrder request => some request
    | _ => none

/-- A call to a handler: what it met, and what it sent to be ordered. -/
structure BudgetNote where
  pre : BudgetState
  call : WorkflowCall
  services : Services
  orders : List ExecuteOrderRequest

/-- A call to a handler, with the services that it meets.  A proposal that is stored is not the one that
was there, so the row tells whether it was. -/
def budgetStep (p : Platform) (userId : String) (today : ℤ) (s : BudgetState)
    (l : WorkflowCall × Services) : Option (BudgetState × BudgetNote) :=
  let d := l.1.handled userId today (l.2.env p) s.table
  let before := s.table (todaysRow userId today)
  let input :=
    if d.state (todaysRow userId today) = before then s.input
    else ((l.2.env p).proposalRequest userId before l.1).bind (l.2.optimizerInput p)
  some ({ table := d.state, input },
    { pre := s, call := l.1, services := l.2, orders := ordersIn d.events })

/-! ### The ceiling -/

/-- The cart is what the optimiser answers for the input. -/
def AnswerTo (p : Platform) (input : Hacker.OptimizationInput) (cart : OptimizedCart) : Prop :=
  ∃ result, Hacker.HackerAlgorithm.optimize p.js input = .ok result ∧
    cart = Hacker.HackerService.optimizedCart input.cartItems input.fillerCandidates result

/-- Each cart that is sent to be ordered is the answer to an input within its budget: it is not flagged,
and costs no more than what was left for the day. -/
def BudgetNote.WithinBudget (p : Platform) (n : BudgetNote) : Prop :=
  ∀ request ∈ n.orders, ∃ input cart, n.pre.input = some input ∧ request.cart = some cart ∧
    AnswerTo p input cart ∧ cart.overBudget = false ∧ cart.finalTotal ≤ input.remainingDailyBudget

/-- The `data` with which an APPROVE takes a row. -/
def approval : WorkflowUpdate := { phase := .APPROVED, decision := some .APPROVE }

/-- An APPROVE of a row that awaits approval, which is read and taken. -/
structure Approves (env : Env) (id : RowId) (before : Option WorkflowRow) (call : WorkflowCall)
    (row : WorkflowRow) : Prop where
  approve : call = .handleUserDecision .APPROVE
  stored : before = some row
  awaits : row.phase = .AWAITING_APPROVAL
  found : (env (.findUnique id)).error = none
  taken : (env (.update id approval)).error = none

/-- What is approved is affordable: the price of the dish is within the daily limit, or a coupon that
may be used brings it there. -/
def BudgetNote.Affords (p : Platform) (userId : String) (today : ℤ) (n : BudgetNote) : Prop :=
  ∀ row, Approves (n.services.env p) (todaysRow userId today)
      (n.pre.table (todaysRow userId today)) n.call row →
    ∀ input, n.pre.input = some input → input.Affordable p.js

/-! ### The answer of the optimiser -/

section Answer

variable {p : Platform} {input : Hacker.OptimizationInput} {cart : OptimizedCart}

/-- The answer to an input is within the budget exactly where the input is affordable. -/
theorem within_iff (h : AnswerTo p input cart) (hbudget : 0 ≤ input.remainingDailyBudget) :
    (cart.overBudget = false ∧ cart.finalTotal ≤ input.remainingDailyBudget) ↔
      input.Affordable p.js := by
  obtain ⟨result, hresult, rfl⟩ := h
  rw [Hacker.optimize_eq] at hresult
  obtain ⟨-, rfl⟩ := Hacker.buildResult_eq_ok hresult
  rw [Hacker.affordable_iff hbudget]
  simp [Hacker.HackerService.optimizedCart]

/-- A request that parses leaves a budget that is not negative. -/
theorem budget_nonneg_of_parse {request : OptimizeCartRequest} {parsed : Hacker.OptimizeCartRequest}
    (h : parseOptimizeCartRequest request = some parsed) : 0 ≤ parsed.remainingDailyBudget := by
  unfold parseOptimizeCartRequest at h
  split at h
  · split at h
    · cases h
    · rename_i hvalid
      cases h
      push Not at hvalid
      exact hvalid.2
  · cases h

end Answer

/-! ### What is ordered -/

section Orders

variable {today : ℤ} {env : Env} {t : WorkflowStates} {id : RowId} {userId : String}
  {row : WorkflowRow} {request : ExecuteOrderRequest}

/-- What is sent to be ordered of a row. -/
def WorkflowRow.order (row : WorkflowRow) (userId : String) : ExecuteOrderRequest where
  userId
  addressId := row.addressId
  restaurantId := row.restaurantId
  cart := row.optimizedCart

/-- A call that orders nothing. -/
theorem ordersIn_call {i : WorkflowOp} {k : Except Err i.Answer → WorkflowProg WorkflowReply}
    {x : Except Err i.Answer × WorkflowStates} (hi : i.isExecuteOrder = false)
    (hx : under today env i t = x) :
    ordersIn ((Prog.call i k).play (under today) (fun _ => env) t).events =
      ordersIn ((k x.1).play (under today) (fun _ => env) x.2).events := by
  subst hx
  rw [Prog.play_call, ordersIn, List.filterMap_cons_none]
  · rfl
  · cases i <;> first | rfl | cases hi

/-- A program that orders nothing. -/
theorem ordersIn_of_asks {q : WorkflowProg WorkflowReply}
    (h : q.Asks (fun _ _ => True) fun i => i.isExecuteOrder = false) :
    ordersIn (q.play (under today) (fun _ => env) t).events = [] := by
  have hwlp : q.wlp (under today) (fun evs _ _ => (∀ ev ∈ evs, True → True) →
      ∀ ev ∈ evs, ev.call.isExecuteOrder = false) t :=
    h.wlp (I := fun _ => True) (fun _ _ _ _ => trivial) trivial
  have hcalls := Prog.wlp_play hwlp (fun _ => env) fun _ _ _ => trivial
  refine List.filterMap_eq_nil_iff.mpr fun ev hev => ?_
  have hnot := hcalls ev hev
  split
  · rename_i hcall
    rw [hcall] at hnot
    cases hnot
  · rfl

/-- Only what an APPROVE asks for is ordered. -/
theorem proposing_quiet (userId : String) :
    Proposing (fun _ _ => True) (fun i => i.isExecuteOrder = false) userId where
  plain i hi := by
    cases i <;> first | rfl | cases hi
  analyze _ _ := rfl
  scout _ _ _ := rfl
  swap _ _ _ _ := rfl

/-- The call that orders, with a program after it that orders nothing more. -/
theorem ordersIn_executeOrder
    {k : Except Err ExecuteOrderResponse → WorkflowProg WorkflowReply}
    (hk : ∀ r, (k r).Asks (fun _ _ => True) fun i => i.isExecuteOrder = false) :
    ordersIn ((Prog.call (.executeOrder request) k).play (under today) (fun _ => env) t).events =
      [request] := by
  exact congrArg (request :: ·) (ordersIn_of_asks (hk _))

/-- An APPROVE orders the cart of the row, if it can take the row. -/
theorem mem_orders_approve (hrow : t id = some row) :
    request ∈ ordersIn ((approve id userId row.addressId row.restaurantId row.optimizedCart
      row.shortlist).play (under today) (fun _ => env) t).events ↔
      (env (.update id approval)).error = none ∧ request = row.order userId := by
  rw [approve_eq]
  change request ∈ ordersIn ((Prog.call (.update id approval) _).play _ _ _).events ↔ _
  cases htaken : (env (.update id approval)).error with
  | some err =>
    rw [ordersIn_call rfl (under_error htaken (by simp))]
    simp [ordersIn]
  | none =>
    have hserve : under today env (.update id approval) t = _ := under_ok htaken
    simp only [serve, hrow] at hserve
    rw [ordersIn_call rfl hserve]
    dsimp only
    rw [ordersIn_executeOrder]
    · simp [WorkflowRow.order]
    · rintro (err | order)
      · trivial
      · exact asks_afterExecuteOrder (proposing_quiet userId)

/-- A handler orders what it orders with the row that it can read. -/
theorem mem_orders_onRow {f : RowId → Option WorkflowRow → WorkflowProg WorkflowReply} :
    request ∈ ordersIn ((onRow userId f).play (under today) (fun _ => env) t).events ↔
      (env (.findUnique (todaysRow userId today))).error = none ∧
        request ∈ ordersIn ((f (todaysRow userId today) (t (todaysRow userId today))).play
          (under today) (fun _ => env) t).events := by
  unfold onRow
  rw [ordersIn_call rfl under_now]
  dsimp only [serve]
  rw [startOfUtcDay_now]
  change request ∈ ordersIn ((Prog.call (.findUnique (todaysRow userId today)) _).play _ _ _).events ↔ _
  cases hfound : (env (.findUnique (todaysRow userId today))).error with
  | some err =>
    rw [ordersIn_call rfl (under_error hfound (by simp))]
    simp [ordersIn]
  | none =>
    rw [ordersIn_call rfl (under_ok hfound)]
    simp [serve, todaysRow]

/-- **What a handler orders**: the cart of a row that it approves. -/
theorem mem_orders_handled {call : WorkflowCall} :
    request ∈ ordersIn (call.handled userId today env t).events ↔
      ∃ row, Approves env (todaysRow userId today) (t (todaysRow userId today)) call row ∧
        request = row.order userId := by
  by_cases hcall : call = .handleUserDecision .APPROVE
  · subst hcall
    change request ∈ ordersIn ((handleUserDecision userId .APPROVE).play _ _ _).events ↔ _
    rw [handleUserDecision_eq, mem_orders_onRow]
    constructor
    · rintro ⟨hfound, hmem⟩
      cases hrow : t (todaysRow userId today) with
      | none =>
        rw [hrow] at hmem
        cases hmem
      | some row =>
        rw [hrow] at hmem
        dsimp only at hmem
        split at hmem
        · rename_i hphase
          obtain ⟨htaken, horder⟩ := (mem_orders_approve hrow).mp hmem
          exact ⟨row, ⟨rfl, rfl, hphase, hfound, htaken⟩, horder⟩
        · cases hmem
    · rintro ⟨row, ⟨-, hrow, hphase, hfound, htaken⟩, horder⟩
      refine ⟨hfound, ?_⟩
      rw [hrow]
      dsimp only
      rw [if_pos hphase]
      exact (mem_orders_approve hrow).mpr ⟨htaken, horder⟩
  · have hquiet := asks_prog (proposing_quiet userId) call fun h => absurd h hcall
    have hnone : ordersIn (call.handled userId today env t).events = [] := ordersIn_of_asks hquiet
    rw [hnone]
    simp only [List.not_mem_nil, false_iff]
    rintro ⟨row, h, -⟩
    exact hcall h.approve

end Orders

/-! ### What the row holds -/

/-- A row of the day that awaits approval holds what the optimiser has answered for the input. -/
def Traced (p : Platform) (id : RowId) (s : BudgetState) : Prop :=
  ∀ row, s.table id = some row → row.phase = .AWAITING_APPROVAL →
    ∃ input cart, s.input = some input ∧ row.optimizedCart = some cart ∧ AnswerTo p input cart ∧
      0 ≤ input.remainingDailyBudget

section Traced

variable {p : Platform} {services : Services} {env : Env} {id : RowId} {proposal : MenuItem}
  {row : WorkflowRow}

/-- What is put up is the answer of the optimiser. -/
theorem answerTo_of_putUp {addressId restaurantId : Option String} {rankedItems : List RankedMenuItem}
    {rejectedItemIds : List String} (h : PutUp (services.env p) id addressId restaurantId rankedItems
      rejectedItemIds proposal row) :
    ∃ input cart, services.optimizerInput p
        ((services.env p).cartRequest id.userId addressId restaurantId proposal) = some input ∧
      row.optimizedCart = some cart ∧ AnswerTo p input cart ∧ 0 ≤ input.remainingDailyBudget := by
  obtain ⟨parsed, result, hparsed, hresult, hcart⟩ := optimized h.served.optimized
  refine ⟨services.gateway.input p.number parsed, _, ?_, h.cart, ⟨result, hresult, hcart⟩,
    budget_nonneg_of_parse hparsed⟩
  unfold Services.optimizerInput
  rw [hparsed]
  rfl

/-- A scout that puts up a proposal changes the row: it was not there, or was not proposed. -/
theorem Scouts.ne {addressId restaurantId : String} {before : Option WorkflowRow}
    (h : Scouts env id addressId restaurantId before proposal row) : some row ≠ before := by
  intro hsame
  have hphase := h.unscouted row hsame.symm
  rw [h.put.phase] at hphase
  cases hphase

/-- A SWAP that puts up a proposal changes the row: the item that was proposed is passed over. -/
theorem Swaps.ne {old : WorkflowRow} {shortlist : ShortlistState}
    (h : Swaps env id old shortlist proposal row) : row ≠ old := by
  rintro rfl
  have hcurrent : shortlist.currentItem = proposal :=
    congrArg ShortlistState.currentItem (Option.some.inj (h.stored.symm.trans h.put.shortlist))
  exact (best_of_selected h.put.selected).ranked.2 (by simp [hcurrent])

theorem Scouts.proposalRequest_eq {addressId restaurantId : String} {before : Option WorkflowRow}
    (h : Scouts env id addressId restaurantId before proposal row) :
    env.proposalRequest id.userId before (.runScoutPhase addressId restaurantId) =
      some (env.cartRequest id.userId (some addressId) (some restaurantId) proposal) :=
  congrArg (Option.map _) h.put.selected

theorem Swaps.proposalRequest_eq {old : WorkflowRow} {shortlist : ShortlistState}
    (h : Swaps env id old shortlist proposal row) :
    env.proposalRequest id.userId (some old) (.handleUserDecision .SWAP) =
      some (env.cartRequest id.userId old.addressId old.restaurantId proposal) := by
  simp only [Env.proposalRequest, h.stored, Option.bind_some]
  exact congrArg (Option.map _) h.put.selected

end Traced

section Runs

variable {p : Platform} {userId : String} {today : ℤ} {s s' : BudgetState} {n : BudgetNote}
  {l : WorkflowCall × Services}

/-- Each call keeps the trace. -/
theorem traced_step (h : Traced p (todaysRow userId today) s)
    (hs : budgetStep p userId today s l = some (s', n)) :
    Traced p (todaysRow userId today) s' := by
  obtain ⟨call, services⟩ := l
  cases hs
  intro row hrow hphase
  dsimp only at hrow ⊢
  have hawaits : AwaitsAfter (services.env p) (todaysRow userId today)
      (s.table (todaysRow userId today)) call
      ((call.outcome userId today (services.env p) s.table).2 (todaysRow userId today)) :=
    awaitsAfter call
  rw [outcome_eq] at hawaits
  dsimp only at hawaits
  rw [hrow] at hawaits ⊢
  generalize hbefore : s.table (todaysRow userId today) = before at hawaits ⊢
  cases hawaits with
  -- nothing was put up, and the input is that of the row
  | kept hkept =>
    have hold := hkept row rfl hphase
    rw [if_pos hold.symm]
    exact h row (hbefore.trans hold) hphase
  | scouted hscouts =>
    rw [if_neg hscouts.ne]
    obtain ⟨input, cart, hinput, hcart⟩ := answerTo_of_putUp hscouts.put
    exact ⟨input, cart, (congrArg (Option.bind · _) hscouts.proposalRequest_eq).trans hinput, hcart⟩
  | swapped hold hswaps =>
    subst hold
    rw [if_neg (by simpa using hswaps.ne)]
    obtain ⟨input, cart, hinput, hcart⟩ := answerTo_of_putUp hswaps.put
    exact ⟨input, cart, (congrArg (Option.bind · _) hswaps.proposalRequest_eq).trans hinput, hcart⟩

/-- What a call orders is within the budget exactly where what it approves is affordable. -/
theorem withinBudget_step (h : Traced p (todaysRow userId today) s)
    (hs : budgetStep p userId today s l = some (s', n)) :
    n.WithinBudget p ↔ n.Affords p userId today := by
  obtain ⟨call, services⟩ := l
  cases hs
  constructor
  · intro hwithin row happroves input hinput
    obtain ⟨input', cart, hinput', hcart, hanswer, hflag⟩ :=
      hwithin _ (mem_orders_handled.mpr ⟨row, happroves, rfl⟩)
    obtain ⟨input'', -, hinput'', -, -, hbudget⟩ := h row happroves.stored happroves.awaits
    cases hinput.symm.trans hinput'
    cases hinput.symm.trans hinput''
    exact (within_iff hanswer hbudget).mp hflag
  · intro haffords request hrequest
    obtain ⟨row, happroves, rfl⟩ := mem_orders_handled.mp hrequest
    obtain ⟨input, cart, hinput, hcart, hanswer, hbudget⟩ := h row happroves.stored happroves.awaits
    exact ⟨input, cart, hinput, hcart, hanswer,
      (within_iff hanswer hbudget).mpr (haffords row happroves input hinput)⟩

end Runs

/-! ### A thali above the limit -/

/-- The services of a vegetarian with a daily limit. -/
def limited (dailyAvgLimit : ℤ) : Services :=
  { vegServices with
    others := fun
      | .getSubscription _ => { subscription := ⟨15000, 15000, dailyAvgLimit⟩ }
      | i => vegServices.others i }

/-- The order of the thali. -/
def thaliOrder (overBudget : Bool) : ExecuteOrderRequest where
  userId := "u"
  addressId := some "home"
  restaurantId := some "rest-1"
  cart := some
    { items := [{ itemId := "1", quantity := 1 }], baseCost := 249, finalTotal := 249, overBudget }

end Gusto.Workflow
