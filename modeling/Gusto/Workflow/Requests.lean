import Gusto.Lib.Fault
import Gusto.Lib.Run
import Gusto.Workflow.Cycle
import Gusto.Workflow.Upstream

/-!
# The requests of a scout and of a SWAP

* `WorkflowOp.Accepted`: the request is one that its callee takes: ai-agent-service a menu of at most
  50 items, coupon-optimization-service a cart of whole paise;
* `Sources`: the menus, the profiles and the subscriptions that the services may answer;
* `RequestsAccepted`: in every run of the handlers of a day, each request is accepted;
* `requestsAccepted_iff`: so it is exactly where each menu is short and in whole paise.
-/

set_option autoImplicit false

namespace Gusto.Workflow

open Effects WorkflowService

/-! ### What the callees take -/

/-- `PreferenceProfileSchema`, of what its type leaves open. -/
def PreferenceProfileSchema (profile : PreferenceProfile) : Prop :=
  1 ≤ profile.spiceLevel ∧ profile.spiceLevel ≤ 5

/-- ai-agent-service takes the request: its model does, and the check of the batch. -/
structure TakesAnalysis (request : ScoutAnalysisRequest) : Prop where
  profile : PreferenceProfileSchema request.preferenceProfile
  batch : request.menuItems.length ≤ Scout.maxMenuItemsPerBatch

/-- A request to one of the two services is one that the service takes. -/
def WorkflowOp.Accepted : WorkflowOp → Prop
  | .analyze request => TakesAnalysis request
  | .optimizeCart request => (parseOptimizeCartRequest request).isSome
  | _ => True

/-- A longer menu is refused, whatever the model would answer. -/
theorem analyze_refused {p : Platform} {services : Services} {request : ScoutAnalysisRequest}
    (h : ¬ request.menuItems.length ≤ Scout.maxMenuItemsPerBatch) :
    services.analyze p request = .error (overFastApi (.http 400 "Max 50 items per batch")) := by
  unfold Services.analyze Scout.ScoutAgent.analyze
  rw [if_pos (not_le.mp h)]
  rfl

/-- A cart that does not parse is refused. -/
theorem optimizeCart_refused {p : Platform} {services : Services} {request : OptimizeCartRequest}
    (h : ¬ (parseOptimizeCartRequest request).isSome) :
    services.optimizeCart p request = .error invalidBody := by
  unfold Services.optimizeCart
  rw [Option.not_isSome_iff_eq_none.mp h]

/-! ### What the services answer -/

/-- The menus, the stored profiles and the subscriptions that may be answered; a subscription has a
deposit and a daily limit. -/
structure Sources where
  menus : Set MenuResponse
  profiles : Set (Option PreferenceProfile)
  subscriptions : Set EscrowSubscription
  valid : ∀ stored ∈ profiles, ∀ profile ∈ stored, PreferenceProfileSchema profile
  funded : ∀ subscription ∈ subscriptions,
    0 < subscription.totalDeposited ∧ 0 < subscription.dailyAvgLimit
  someProfile : profiles.Nonempty
  someSubscription : subscriptions.Nonempty

abbrev WorkflowEvent : Type := Event WorkflowStates WorkflowOp WorkflowChoice

/-- A ranked list that `ScoutAgent.analyze` returns for the request, under some language model. -/
def Returns (request : ScoutAnalysisRequest) (rankedItems : List RankedMenuItem) : Prop :=
  ∃ lower llm items, Scout.ScoutAgent.analyze lower llm request.preferenceProfile request.menuItems
    (some request.weeklyBudget) = .ok items ∧ rankedItems = items.map (·.toRankedMenuItem)

/-- The call fails, or it is answered from the sources, and by the agent as it can be. -/
def Sources.Answers (sources : Sources) (ev : WorkflowEvent) : Prop :=
  ev.choice.error = none →
    match ev.call with
    | .get_restaurant_menu _ _ _ => ev.choice.menu ∈ sources.menus
    | .getPreferenceProfile _ => ev.choice.profile ∈ sources.profiles
    | .getSubscription _ => ev.choice.subscription ∈ sources.subscriptions
    | .analyze request => Returns request ev.choice.rankedItems
    | _ => True

/-- A call of a handler, and what came of it. -/
abbrev DayNote : Type :=
  WorkflowCall × Done WorkflowStates WorkflowOp WorkflowChoice Err WorkflowReply

/-- One whole call of a handler. -/
abbrev dayStep (userId : String) (today : ℤ) :
    WorkflowStates → WorkflowCall × List WorkflowChoice → Option (WorkflowStates × DayNote) :=
  callStep (exec today) (WorkflowCall.prog userId)

/-- In every run of the handlers of a day in which each call is answered from the sources, or fails,
each request is accepted. -/
def RequestsAccepted (sources : Sources) : Prop :=
  ∀ (userId : String) (today : ℤ) (t : WorkflowStates) (os : List DayNote),
    Run (dayStep userId today) anyStep (fun _ => none) t os →
    (∀ o ∈ os, ∀ ev ∈ o.2.events, sources.Answers ev) →
    ∀ o ∈ os, ∀ ev ∈ o.2.events, ev.call.Accepted

/-- A menu that can be ranked at once, and each of its items proposed: it is short, and the items that
are found by their ids cost whole paise. -/
structure Proposable (menuItems : List MenuItem) : Prop where
  short : menuItems.length ≤ Scout.maxMenuItemsPerBatch
  whole : ∀ itemId item, menuById menuItems itemId = some item → item.price.den = 1

/-! ### Proposals -/

section Proposals

variable {menuItems : List MenuItem} {rankedItems : List RankedMenuItem}
  {rejectedItemIds : List String} {proposal : MenuItem} {restaurantId : Option String}
  {response : MenuResponse}

/-- A proposal is found on the menu by its id. -/
theorem menuById_of_selected
    (h : selectNextCandidate menuItems rankedItems rejectedItemIds = some proposal) :
    ∃ itemId, menuById menuItems itemId = some proposal := by
  obtain ⟨ranked, -, hranked⟩ := List.exists_of_findSome?_eq_some h
  split at hranked
  · cases hranked
  · exact ⟨ranked.itemId, hranked⟩

/-- What is on a menu has a price. -/
theorem price_pos (h : proposal ∈ parseMenu restaurantId response) : 0 < proposal.price := by
  obtain ⟨raw, -, hraw⟩ := List.mem_filterMap.mp h
  unfold parseMenuItem at hraw
  split at hraw
  · split at hraw
    · cases hraw
      assumption
    · cases hraw
  · split at hraw
    · cases hraw
      assumption
    · cases hraw
  · cases hraw

/-- The request for a proposal of whole paise parses. -/
theorem isSome_parse {userId addressId restaurantId : String} {limit : ℤ} (hlimit : 0 ≤ limit)
    (hwhole : proposal.price.den = 1) (hpos : 0 < proposal.price) :
    (parseOptimizeCartRequest
      { userId, restaurantId := some restaurantId, addressId := some addressId,
        cartItems := [{ itemId := proposal.itemId, price := proposal.price, quantity := 1 }],
        remainingDailyBudget := limit }).isSome := by
  have hitem : parseCartItem { itemId := proposal.itemId, price := proposal.price, quantity := 1 } =
      some { itemId := proposal.itemId, price := proposal.price.num, quantity := 1 } :=
    if_pos ⟨hwhole, (Rat.num_pos.mpr hpos).le, Int.one_pos⟩
  unfold parseOptimizeCartRequest
  simp [hitem, not_lt.mpr hlimit]

/-- A request that parses is for whole paise. -/
theorem whole_of_isSome {userId : String} {addressId restaurantId : Option String} {limit : ℤ}
    (h : (parseOptimizeCartRequest
      { userId, restaurantId, addressId,
        cartItems := [{ itemId := proposal.itemId, price := proposal.price, quantity := 1 }],
        remainingDailyBudget := limit }).isSome) : proposal.price.den = 1 := by
  by_contra hwhole
  have hitem : parseCartItem { itemId := proposal.itemId, price := proposal.price, quantity := 1 } =
      none := if_neg fun hc => hwhole hc.1
  unfold parseOptimizeCartRequest at h
  simp [hitem] at h

end Proposals

/-! ### What the programs ask -/

/-- The row has an address and a restaurant. -/
def WorkflowRow.Addressed (row : WorkflowRow) : Prop :=
  row.addressId.isSome ∧ row.restaurantId.isSome

/-- Every row has an address and a restaurant. -/
def Addressed (t : WorkflowStates) : Prop := ∀ id row, t id = some row → row.Addressed

theorem Addressed.update {t : WorkflowStates} (h : Addressed t) {id : RowId} {row : WorkflowRow}
    (hrow : row.Addressed) : Addressed (Function.update t id (some row)) := by
  intro id' row' ht
  by_cases hid : id' = id
  · subst hid
    rw [Function.update_self] at ht
    cases ht
    exact hrow
  · rw [Function.update_of_ne hid] at ht
    exact h id' row' ht

/-- A scout gives a row its address and its restaurant, and nothing takes them away. -/
theorem addressed_exec (today : ℤ) (c : WorkflowChoice) (i : WorkflowOp) (t : WorkflowStates)
    (h : Addressed t) : Addressed (exec today c i t).2 := by
  rcases exec_cases today c i t with ⟨err, he⟩ | ⟨he, -⟩
  · rw [he]
    exact h
  rw [he]
  cases i with
  | upsert id addressId restaurantId => exact h.update ⟨rfl, rfl⟩
  | update id data =>
    simp only [serve]
    cases hrow : t id with
    | none => exact h
    | some row => exact h.update (h id row hrow)
  | _ => exact h

/-- The answers that the sources allow, from a table whose rows have their addresses. -/
def Sources.Allows (sources : Sources) : (i : WorkflowOp) → Except Err i.Answer → Prop
  | .get_restaurant_menu _ _ _, .ok response => response ∈ sources.menus
  | .getPreferenceProfile _, .ok stored => stored ∈ sources.profiles
  | .getSubscription _, .ok subscription => subscription ∈ sources.subscriptions
  | .findUnique _, .ok (some row) => row.Addressed
  | _, _ => True

section Allows

variable {sources : Sources}

theorem allows_of_answers (today : ℤ) {ev : WorkflowEvent} (h : sources.Answers ev)
    (ht : Addressed ev.pre) : sources.Allows ev.call (exec today ev.choice ev.call ev.pre).1 := by
  obtain ⟨t, i, c⟩ := ev
  dsimp only at ht ⊢
  rcases exec_cases today c i t with ⟨err, he⟩ | ⟨he, hserved⟩
  · rw [he]
    cases i <;> trivial
  rw [he]
  cases i with
  | findUnique id =>
    change Sources.Allows sources (.findUnique id) (.ok (t id))
    cases hrow : t id with
    | none => trivial
    | some row => exact ht id row hrow
  | get_restaurant_menu addressId restaurantId userId => exact h (hserved (by simp))
  | getPreferenceProfile userId => exact h (hserved (by simp))
  | getSubscription userId => exact h (hserved (by simp))
  | _ => trivial

end Allows

/-- The calls to the table, to the gateway and to escrow-service, and those whose failure is logged. -/
def WorkflowOp.isPlain : WorkflowOp → Bool
  | .analyze _ | .optimizeCart _ | .executeOrder _ => false
  | _ => true

/-- `P` holds of the plain calls, and of the requests for a proposal from what `R` allows: the ranking
of a menu, and the cart of a candidate for a scout or for the SWAP of a row. -/
structure Proposing (R : (i : WorkflowOp) → Except Err i.Answer → Prop) (P : WorkflowOp → Prop)
    (userId : String) : Prop where
  plain : ∀ i : WorkflowOp, i.isPlain → P i
  analyze : ∀ {addressId restaurantId : String} {stored : Option PreferenceProfile}
    {response : MenuResponse} {subscription : EscrowSubscription},
    R (.getPreferenceProfile userId) (.ok stored) →
    R (.get_restaurant_menu (some addressId) (some restaurantId) userId) (.ok response) →
    P (.analyze
      { preferenceProfile := parsePreferenceProfile stored,
        menuItems := parseMenu (some restaurantId) response,
        weeklyBudget := weeklyBudget subscription })
  scout : ∀ {addressId restaurantId : String} {response : MenuResponse}
    {subscription : EscrowSubscription} {rankedItems : List RankedMenuItem} {proposal : MenuItem},
    R (.get_restaurant_menu (some addressId) (some restaurantId) userId) (.ok response) →
    R (.getSubscription userId) (.ok subscription) →
    selectNextCandidate (parseMenu (some restaurantId) response) rankedItems [] = some proposal →
    P (.optimizeCart
      { userId, restaurantId := some restaurantId, addressId := some addressId,
        cartItems := [{ itemId := proposal.itemId, price := proposal.price, quantity := 1 }],
        remainingDailyBudget := subscription.dailyAvgLimit })
  swap : ∀ {id : RowId} {row : WorkflowRow} {response : MenuResponse}
    {subscription : EscrowSubscription} {rankedItems : List RankedMenuItem}
    {rejectedItemIds : List String} {proposal : MenuItem},
    R (.findUnique id) (.ok (some row)) →
    R (.get_restaurant_menu row.addressId row.restaurantId userId) (.ok response) →
    R (.getSubscription userId) (.ok subscription) →
    selectNextCandidate (parseMenu row.restaurantId response) rankedItems rejectedItemIds =
      some proposal →
    P (.optimizeCart
      { userId, restaurantId := row.restaurantId, addressId := row.addressId,
        cartItems := [{ itemId := proposal.itemId, price := proposal.price, quantity := 1 }],
        remainingDailyBudget := subscription.dailyAvgLimit })

section Asks

variable {R : (i : WorkflowOp) → Except Err i.Answer → Prop} {P : WorkflowOp → Prop} {id : RowId}
  {userId : String} (h : Proposing R P userId)
include h

/-- Writing down a proposal and telling of it makes plain calls. -/
theorem asks_storeProposal {menuItems : List MenuItem} {shortlist : ShortlistState}
    {rejectedItemIds : List String} {skipScoutCompleted : Bool} {optimizedCart : OptimizedCart} :
    (storeProposal id userId menuItems shortlist rejectedItemIds skipScoutCompleted
      optimizedCart).Asks R P := by
  have hannounce {reply : WorkflowReply} :
      (announce userId menuItems optimizedCart reply).Asks R P :=
    ⟨h.plain _ rfl, fun _ _ => ⟨h.plain _ rfl, fun _ _ => trivial⟩⟩
  rw [storeProposal_eq]
  refine ⟨h.plain _ rfl, fun r _ => ?_⟩
  rcases r with err | updated
  · trivial
  · dsimp only
    split
    · exact hannounce
    · exact ⟨h.plain _ rfl, fun _ _ => hannounce⟩

/-- So does a skip. -/
theorem asks_skip {β : Type} {shortlist : Option ShortlistState} {f : SkipReply → β} :
    (skip id userId shortlist >>= fun reply => .ret (f reply)).Asks R P := by
  rw [skip_eq]
  refine ⟨h.plain _ rfl, fun r _ => ?_⟩
  rcases r with err | updated
  · trivial
  · refine ⟨h.plain _ rfl, fun r _ => ?_⟩
    rcases r with err | _
    · trivial
    · refine ⟨h.plain _ rfl, fun _ _ => ?_⟩
      cases shortlist <;> trivial

theorem asks_afterExecuteOrder {restaurantId : Option String} {shortlist : Option ShortlistState}
    {order : ExecuteOrderResponse} :
    (afterExecuteOrder id userId restaurantId shortlist order).Asks R P := by
  refine ⟨h.plain _ rfl, fun r _ => ?_⟩
  rcases r with err | updated
  · trivial
  · cases shortlist with
    | none => trivial
    | some shortlist => exact ⟨h.plain _ rfl, fun _ _ => trivial⟩

/-- An APPROVE orders a cart. -/
theorem asks_approve {addressId restaurantId : Option String} {cart : Option OptimizedCart}
    {shortlist : Option ShortlistState}
    (hcart : P (.executeOrder { userId, addressId, restaurantId, cart })) :
    (approve id userId addressId restaurantId cart shortlist).Asks R P := by
  rw [approve_eq]
  refine ⟨h.plain _ rfl, fun r _ => ?_⟩
  rcases r with err | updated
  · trivial
  · refine ⟨hcart, fun r _ => ?_⟩
    rcases r with err | order
    · trivial
    · exact asks_afterExecuteOrder h

theorem asks_scout {addressId restaurantId : String} :
    (scout id userId addressId restaurantId).Asks R P := by
  unfold scout
  refine ⟨h.plain _ rfl, fun r _ => ?_⟩
  rcases r with err | _
  · trivial
  refine ⟨h.plain _ rfl, fun r hsubscription => ?_⟩
  rcases r with err | subscription
  · trivial
  refine ⟨h.plain _ rfl, fun r hprofile => ?_⟩
  rcases r with err | stored
  · trivial
  refine ⟨h.plain _ rfl, fun r hresponse => ?_⟩
  rcases r with err | response
  · trivial
  refine ⟨h.analyze hprofile hresponse, fun r _ => ?_⟩
  rcases r with err | rankedItems
  · trivial
  dsimp only [afterAnalyze]
  cases hselected : selectNextCandidate (parseMenu (some restaurantId) response) rankedItems [] with
  | none => trivial
  | some proposal =>
    refine ⟨h.scout hresponse hsubscription hselected, fun r _ => ?_⟩
    rcases r with err | optimizedCart
    · trivial
    · exact asks_storeProposal h

theorem asks_swap {row : WorkflowRow} (hrow : R (.findUnique id) (.ok (some row)))
    {rejectedItemIds : List String} :
    (swap id userId row.addressId row.restaurantId row.shortlist rejectedItemIds).Asks R P := by
  cases row.shortlist with
  | none => trivial
  | some shortlist =>
    rw [swap_eq]
    refine ⟨h.plain _ rfl, fun r hresponse => ?_⟩
    rcases r with err | response
    · trivial
    dsimp only [afterSwapMenu]
    cases hselected : selectNextCandidate (parseMenu row.restaurantId response)
        shortlist.rankedItems (rejectedItemIds ++ [shortlist.currentItem.itemId]) with
    | none => exact asks_skip h
    | some proposal =>
      refine ⟨h.plain _ rfl, fun r hsubscription => ?_⟩
      rcases r with err | subscription
      · trivial
      refine ⟨h.swap hrow hresponse hsubscription hselected, fun r _ => ?_⟩
      rcases r with err | optimizedCart
      · trivial
      · exact asks_storeProposal h

/-- A handler reads the row of the day and goes on with it. -/
theorem asks_onRow {f : RowId → Option WorkflowRow → WorkflowProg WorkflowReply}
    (hnone : ∀ id, (f id none).Asks R P)
    (hsome : ∀ id row, R (.findUnique id) (.ok (some row)) → (f id (some row)).Asks R P) :
    (onRow userId f).Asks R P := by
  refine ⟨h.plain _ rfl, fun r _ => ?_⟩
  rcases r with err | date
  · trivial
  refine ⟨h.plain _ rfl, fun r hrow => ?_⟩
  rcases r with err | row
  · trivial
  cases row with
  | none => exact hnone _
  | some row => exact hsome _ row hrow

/-- **What a handler asks**: plain calls and the requests for a proposal; an APPROVE orders too. -/
theorem asks_prog (call : WorkflowCall)
    (happrove : call = .handleUserDecision .APPROVE → ∀ request, P (.executeOrder request)) :
    (call.prog userId).Asks R P := by
  cases call with
  | runScoutPhase addressId restaurantId =>
    change (runScoutPhase userId addressId restaurantId).Asks _ _
    rw [runScoutPhase_eq]
    refine asks_onRow h (fun id => asks_scout h) fun id row _ => ?_
    dsimp only
    split
    · exact asks_scout h
    · trivial
  | handleUserDecision decision =>
    change (handleUserDecision userId decision).Asks _ _
    rw [handleUserDecision_eq]
    refine asks_onRow h (fun id => trivial) fun id row hrow => ?_
    dsimp only
    split
    · cases decision with
      | APPROVE => exact asks_approve h (happrove rfl _)
      | SKIP => exact asks_skip h
      | SWAP => exact asks_swap h hrow
    · trivial
  | sendReminderIfPending =>
    change (sendReminderIfPending userId).Asks _ _
    rw [sendReminderIfPending_eq]
    refine asks_onRow h (fun id => trivial) fun id row _ => ?_
    dsimp only
    split
    · exact ⟨h.plain _ rfl, fun _ _ => trivial⟩
    · trivial
  | finalizeIfPending =>
    change (finalizeIfPending userId).Asks _ _
    rw [finalizeIfPending_eq]
    refine asks_onRow h (fun id => trivial) fun id row _ => ?_
    dsimp only
    split
    · exact asks_skip h
    · trivial

end Asks

section Accepted

variable {sources : Sources} {userId : String} (hmenus : ∀ response ∈ sources.menus, ∀ restaurantId,
  Proposable (parseMenu (some restaurantId) response))
include hmenus

/-- The request for a proposal from a menu of the sources is accepted. -/
theorem accepted_optimizeCart {response : MenuResponse} (hresponse : response ∈ sources.menus)
    {subscription : EscrowSubscription} (hsubscription : subscription ∈ sources.subscriptions)
    {addressId restaurantId : String} {rankedItems : List RankedMenuItem}
    {rejectedItemIds : List String} {proposal : MenuItem}
    (hselected : selectNextCandidate (parseMenu (some restaurantId) response) rankedItems
      rejectedItemIds = some proposal) :
    WorkflowOp.Accepted (.optimizeCart
      { userId, restaurantId := some restaurantId, addressId := some addressId,
        cartItems := [{ itemId := proposal.itemId, price := proposal.price, quantity := 1 }],
        remainingDailyBudget := subscription.dailyAvgLimit }) := by
  obtain ⟨itemId, hmenu⟩ := menuById_of_selected hselected
  have hmem : proposal ∈ parseMenu (some restaurantId) response :=
    List.mem_reverse.mp (List.mem_of_find?_eq_some hmenu)
  exact isSome_parse (sources.funded subscription hsubscription).2.le
    ((hmenus response hresponse restaurantId).whole itemId proposal hmenu) (price_pos hmem)

/-- What is asked for a proposal is accepted. -/
theorem proposing_accepted : Proposing sources.Allows WorkflowOp.Accepted userId where
  plain i hi := by
    cases i <;> trivial
  analyze {addressId restaurantId stored response subscription} hprofile hresponse := by
    have hvalid : PreferenceProfileSchema (parsePreferenceProfile stored) := by
      cases hstored : stored with
      | none => exact ⟨by decide, by decide⟩
      | some profile => exact sources.valid stored hprofile profile hstored
    exact ⟨hvalid, (hmenus response hresponse restaurantId).short⟩
  scout hresponse hsubscription hselected :=
    accepted_optimizeCart hmenus hresponse hsubscription hselected
  swap {id row response subscription rankedItems rejectedItemIds proposal} hrow hresponse
      hsubscription hselected := by
    obtain ⟨addressId, haddress⟩ := Option.isSome_iff_exists.mp hrow.1
    obtain ⟨restaurantId, hrestaurant⟩ := Option.isSome_iff_exists.mp hrow.2
    rw [hrestaurant] at hselected
    rw [haddress, hrestaurant]
    exact accepted_optimizeCart hmenus hresponse hsubscription hselected

end Accepted

/-! ### Runs -/

section Runs

variable {sources : Sources} {userId : String} {today : ℤ} {t : WorkflowStates} {os : List DayNote}
  {response : MenuResponse}

/-- **Where each menu can be proposed from**, each request of each run is accepted. -/
theorem accepted_of_run
    (hmenus : ∀ response ∈ sources.menus, ∀ restaurantId,
      Proposable (parseMenu (some restaurantId) response))
    (hr : Run (dayStep userId today) anyStep (fun _ => none) t os)
    (hos : ∀ o ∈ os, ∀ ev ∈ o.2.events, sources.Answers ev) :
    ∀ o ∈ os, ∀ ev ∈ o.2.events, ev.call.Accepted := by
  have hstart : Addressed fun _ => none := fun id row hrow => by cases hrow
  refine hr.forall_of_invariant hos hstart fun t l t' o ht ho hstep => ?_
  obtain ⟨hrun, -, rfl⟩ := callStep_eq_some.mp hstep
  have hasks : (l.1.prog userId).Asks sources.Allows WorkflowOp.Accepted :=
    asks_prog (proposing_accepted hmenus) l.1 fun _ _ => trivial
  have haddressed := Prog.wlp_iff_run.mp (Prog.wlp_invariant (addressed_exec today) ht) _ _ hrun
  have haccepted := Prog.wlp_iff_run.mp (hasks.wlp (addressed_exec today) ht) _ _ hrun
  exact ⟨haddressed, haccepted fun ev hev hpre => allows_of_answers today (ho ev hev) hpre⟩

/-- What every run meets, the scout of a new row meets. -/
theorem wlp_scout (h : RequestsAccepted sources) (restaurantId : String) :
    ∃ id, (scout id "u" "home" restaurantId).wlp (exec 0)
      (fun evs _ _ => (∀ ev ∈ evs, sources.Answers ev) → ∀ ev ∈ evs, ev.call.Accepted)
      fun _ => none := by
  have hcall : ((WorkflowCall.runScoutPhase "home" restaurantId).prog "u").wlp (exec 0)
      (fun evs _ _ => (∀ ev ∈ evs, sources.Answers ev) → ∀ ev ∈ evs, ev.call.Accepted)
      fun _ => none := by
    refine Prog.wlp_iff_run.mpr fun cs d hrun hanswers => ?_
    have hstep : dayStep "u" 0 (fun _ => none) (.runScoutPhase "home" restaurantId, cs) =
        some (d.state, .runScoutPhase "home" restaurantId, d) :=
      callStep_eq_some.mpr ⟨hrun, rfl, rfl⟩
    exact h "u" 0 _ _ (.snoc _ .nil trivial hstep) (by simpa using hanswers) _
      (List.mem_singleton_self _)
  change (runScoutPhase "u" "home" restaurantId).wlp _ _ _ at hcall
  rw [runScoutPhase_eq] at hcall
  refine ⟨_, Prog.wlp_mono (fun evs _ _ hevs hanswers ev hev => ?_) (hcall {} {})⟩
  refine hevs (List.forall_mem_cons.mpr ⟨fun _ => trivial, ?_⟩) ev
    (List.mem_cons_of_mem _ (List.mem_cons_of_mem _ hev))
  exact List.forall_mem_cons.mpr ⟨fun _ => trivial, hanswers⟩

/-- A model that ranks one dish, and no other. -/
def favourite (itemId : String) : Scout.Claude where
  tag _ := .ok []
  rank _ _ := .ok [{ itemId := some itemId, semanticTags := some [], matchScore := some 1 }]

/-- The dish as it is ranked. -/
def rankedFavourite (itemId : String) : RankedMenuItem :=
  { itemId, semanticTags := [], matchScore := 1 }

/-- The guard leaves it as it is: it has no tags. -/
theorem guardItem_favourite {lower : String → String} {diet : Diet} {item : Scout.RankedMenuItem}
    (h : item.semanticTags = []) : Scout.guardItem lower diet item = item := by
  unfold Scout.guardItem
  refine if_neg fun hzero => ?_
  obtain ⟨tag, htag, -⟩ := Scout.shouldZero_iff.mp hzero
  rw [h] at htag
  cases htag

/-- Any dish may be ranked first. -/
theorem returns_favourite (request : ScoutAnalysisRequest)
    (hshort : request.menuItems.length ≤ Scout.maxMenuItemsPerBatch) (itemId : String) :
    Returns request [rankedFavourite itemId] := by
  refine ⟨id, favourite itemId, [{ rankedFavourite itemId with ge := ?_, le := ?_ }], ?_, rfl⟩
  · exact zero_le_one
  · exact le_rfl
  unfold Scout.ScoutAgent.analyze
  rw [if_neg (not_lt.mpr hshort)]
  simp only [Scout.invoke, Scout.taggerNode, Scout.rankerNode, favourite, List.mapM_cons,
    List.mapM_nil, Scout.RawRankedItem.validate, bind, Except.bind, pure, Except.pure,
    zero_le_one, le_refl, and_self, dite_true, Scout.dietGuardNode]
  split
  · rfl
  · exact congrArg (fun item => Except.ok [item]) (guardItem_favourite rfl)

/-- A call may fail. -/
theorem answers_of_error {ev : WorkflowEvent} {err : Err} (h : ev.choice.error = some err) :
    sources.Answers ev := by
  intro hnone
  rw [h] at hnone
  cases hnone

/-- Each menu is asked about, and so each is short. -/
theorem short_of_requestsAccepted (h : RequestsAccepted sources) (hresponse : response ∈ sources.menus)
    (restaurantId : String) :
    (parseMenu (some restaurantId) response).length ≤ Scout.maxMenuItemsPerBatch := by
  obtain ⟨profile, hprofile⟩ := sources.someProfile
  obtain ⟨subscription, hsubscription⟩ := sources.someSubscription
  obtain ⟨id, hscout⟩ := wlp_scout h restaurantId
  have hrun := hscout {} { subscription } { profile } { menu := response }
    { error := some noShortlist }
  simp only [List.forall_mem_cons] at hrun
  obtain ⟨-, -, -, -, hanalyze, -⟩ := hrun ⟨fun _ => trivial, fun _ => hsubscription,
    fun _ => hprofile, fun _ => hresponse, answers_of_error rfl, List.forall_mem_nil _⟩
  exact hanalyze.batch

/-- Each of its items may be proposed, and so each costs whole paise. -/
theorem whole_of_requestsAccepted (h : RequestsAccepted sources) (hresponse : response ∈ sources.menus)
    {restaurantId itemId : String} {item : MenuItem}
    (hitem : menuById (parseMenu (some restaurantId) response) itemId = some item) :
    item.price.den = 1 := by
  obtain ⟨profile, hprofile⟩ := sources.someProfile
  obtain ⟨subscription, hsubscription⟩ := sources.someSubscription
  obtain ⟨id, hscout⟩ := wlp_scout h restaurantId
  have hafter := hscout {} { subscription } { profile } { menu := response }
    { rankedItems := [rankedFavourite itemId] }
  have hselected : selectNextCandidate (parseMenu (some restaurantId) response)
      [rankedFavourite itemId] [] = some item := by
    simpa [selectNextCandidate, rankedFavourite] using hitem
  change (afterAnalyze id "u" "home" restaurantId subscription
    (parseMenu (some restaurantId) response) [rankedFavourite itemId]).wlp _ _ _ at hafter
  unfold afterAnalyze at hafter
  rw [hselected] at hafter
  have hrun := hafter { error := some noShortlist }
  simp only [List.forall_mem_cons] at hrun
  have hreturns := returns_favourite
    { preferenceProfile := parsePreferenceProfile profile,
      menuItems := parseMenu (some restaurantId) response,
      weeklyBudget := weeklyBudget subscription }
    (short_of_requestsAccepted h hresponse restaurantId) itemId
  obtain ⟨-, -, -, -, -, hcart, -⟩ := hrun ⟨fun _ => trivial, fun _ => hsubscription,
    fun _ => hprofile, fun _ => hresponse, fun _ => hreturns, answers_of_error rfl,
    List.forall_mem_nil _⟩
  exact whole_of_isSome hcart

end Runs

/-- **Requests are accepted** in every run exactly where each menu can be proposed from. -/
theorem requestsAccepted_iff (sources : Sources) :
    RequestsAccepted sources ↔ ∀ response ∈ sources.menus, ∀ restaurantId,
      Proposable (parseMenu (some restaurantId) response) := by
  constructor
  · intro h response hresponse restaurantId
    exact ⟨short_of_requestsAccepted h hresponse restaurantId,
      fun itemId item hitem => whole_of_requestsAccepted h hresponse hitem⟩
  · intro h userId today t os hr hos
    exact accepted_of_run h hr hos

/-! ### A dish of a fraction of a paisa -/

/-- The one dish costs 99 paise and a half. -/
def halfPaisaMenu : MenuResponse where
  categories := some [some [{ id := .value "i", name := .value "thali", price := .value (199 / 2) }]]

/-- Sources with one menu, no stored profile and one subscription. -/
def sourcesOf (response : MenuResponse) : Sources where
  menus := {response}
  profiles := {none}
  subscriptions := {⟨350000, 350000, 50000⟩}
  valid := by
    rintro stored rfl profile hprofile
    cases hprofile
  funded := by
    rintro subscription rfl
    exact ⟨by decide, by decide⟩
  someProfile := ⟨none, rfl⟩
  someSubscription := ⟨_, rfl⟩

/-- A scout asks for a cart that is refused, where a dish costs a fraction. -/
theorem not_requestsAccepted : ¬ ∀ sources, RequestsAccepted sources := by
  intro h
  have hitem : menuById (parseMenu (some "r") halfPaisaMenu) "i" =
      some ⟨"i", "r", "thali", 199 / 2, none⟩ := by decide +kernel
  have hwhole := whole_of_requestsAccepted (h (sourcesOf halfPaisaMenu)) rfl hitem
  revert hwhole
  decide +kernel

end Gusto.Workflow
