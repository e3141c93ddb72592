import Gusto.Workflow.Service

/-!
# The programs of the workflow, call by call

Each handler as the tree of its calls, for the proofs that follow one call after the other:

* `skip_eq`, `approve_eq`, `swap_eq`, `scout_eq`: what a decision and a scout do;
* `runScoutPhase_eq`, `handleUserDecision_eq`, `sendReminderIfPending_eq`, `finalizeIfPending_eq`: the
  handlers, which read the row and go on with one of these.
-/

set_option autoImplicit false

namespace Gusto.Workflow

open Effects

theorem request_bind {β : Type} {i : WorkflowOp} {f : i.Answer → WorkflowProg β} :
    (request i >>= f) = .call i fun
      | .ok answer => f answer
      | .error err => .throw (mapUpstreamError err) := by
  refine congrArg (Prog.call i) (funext fun r => ?_)
  cases r <;> rfl

theorem bestEffort_bind {β : Type} {i : WorkflowOp} {f : Unit → WorkflowProg β} :
    (bestEffort i >>= f) = .call i fun _ => f () := by
  refine congrArg (Prog.call i) (funext fun r => ?_)
  cases r <;> rfl

theorem await_bind {β : Type} {i : WorkflowOp} {f : i.Answer → WorkflowProg β} :
    ((Prog.await i : WorkflowProg i.Answer) >>= f) = .call i fun
      | .ok answer => f answer
      | .error err => .throw err := by
  refine congrArg (Prog.call i) (funext fun r => ?_)
  cases r <;> rfl

theorem startOfUtcDay_now (today n : ℤ) :
    startOfUtcDay (startOfUtcDay today + n % DAY) = startOfUtcDay today := by
  unfold startOfUtcDay DAY
  omega

namespace WorkflowService

variable {id : RowId} {userId : String} {addressId restaurantId : Option String}
  {cart : Option OptimizedCart} {shortlist : Option ShortlistState}

/-- What `skip` does once the row is SKIPPED. -/
def afterSkip (userId : String) (shortlist : Option ShortlistState) (updated : WorkflowRow) :
    WorkflowProg SkipReply :=
  .call (.rollover userId) fun
    | .ok _ => .call (.publishMealSkipped userId) fun _ =>
      match shortlist with
      | some shortlist => .ret { phase := updated.phase, currentItem := shortlist.currentItem }
      | none => .throw noShortlist
    | .error err => .throw (mapUpstreamError err)

theorem skip_eq : skip id userId shortlist =
    .call (.update id { phase := .SKIPPED, decision := some .SKIP }) fun
      | .ok updated => afterSkip userId shortlist updated
      | .error err => .throw err := by
  refine congrArg (Prog.call _) (funext fun r => ?_)
  rcases r with err | updated
  · rfl
  · refine congrArg (Prog.call _) (funext fun r => ?_)
    rcases r with err | _
    · rfl
    · refine congrArg (Prog.call _) (funext fun r => ?_)
      cases r <;> cases shortlist <;> rfl

/-- What `approve` does once the order is there. -/
def afterExecuteOrder (id : RowId) (userId : String) (restaurantId : Option String)
    (shortlist : Option ShortlistState) (order : ExecuteOrderResponse) :
    WorkflowProg WorkflowReply :=
  .call (.update id { phase := .EXECUTING }) fun
    | .ok updated =>
      match shortlist with
      | some shortlist => .call (.publishMealApproved
          { userId, itemId := shortlist.currentItem.itemId, restaurantId,
            price := shortlist.currentItem.price, name := shortlist.currentItem.name })
          fun _ => .ret (.ordered userId updated.phase order.orderId order.status)
      | none => .ret (.ordered userId updated.phase order.orderId order.status)
    | .error err => .throw err

theorem approve_eq : approve id userId addressId restaurantId cart shortlist =
    .call (.update id { phase := .APPROVED, decision := some .APPROVE }) fun
      | .ok _ => .call (.executeOrder { userId, addressId, restaurantId, cart }) fun
        | .ok order => afterExecuteOrder id userId restaurantId shortlist order
        | .error err => .throw (mapUpstreamError err)
      | .error err => .throw err := by
  refine congrArg (Prog.call _) (funext fun r => ?_)
  rcases r with err | updated
  · rfl
  · refine congrArg (Prog.call _) (funext fun r => ?_)
    rcases r with err | order
    · rfl
    · refine congrArg (Prog.call _) (funext fun r => ?_)
      rcases r with err | updated
      · rfl
      · cases shortlist with
        | none => rfl
        | some shortlist =>
          refine congrArg (Prog.call _) (funext fun r => ?_)
          cases r <;> rfl

/-- What a proposal comes to: the row awaits approval, the events and the notification are sent. -/
def storeProposal (id : RowId) (userId : String) (menuItems : List MenuItem)
    (shortlist : ShortlistState) (rejectedItemIds : List String) (skipScoutCompleted : Bool)
    (optimizedCart : OptimizedCart) : WorkflowProg WorkflowReply := do
  let updated ← Prisma.update id
    { phase := .AWAITING_APPROVAL, shortlist := some shortlist, optimizedCart := some optimizedCart,
      rejectedItemIds := some rejectedItemIds }
  publishScoutCompletedAndMenuProposed userId menuItems optimizedCart skipScoutCompleted
  dispatchMenuNotification userId (some optimizedCart)
  return .proposed userId updated.phase optimizedCart

/-- What is sent once a proposal is stored. -/
def announce (userId : String) (menuItems : List MenuItem) (optimizedCart : OptimizedCart)
    (reply : WorkflowReply) : WorkflowProg WorkflowReply :=
  .call (.publishMenuProposed userId
    (menuItems.filter (·.itemId ∈ optimizedCart.items.map (·.itemId)))) fun _ =>
    .call (.sendMenuOfTheDay userId (some optimizedCart)) fun _ => .ret reply

theorem storeProposal_eq {menuItems : List MenuItem} {shortlist : ShortlistState}
    {rejectedItemIds : List String} {skipScoutCompleted : Bool} {optimizedCart : OptimizedCart} :
    storeProposal id userId menuItems shortlist rejectedItemIds skipScoutCompleted optimizedCart =
      .call (.update id
        { phase := .AWAITING_APPROVAL, shortlist := some shortlist,
          optimizedCart := some optimizedCart, rejectedItemIds := some rejectedItemIds }) fun
        | .ok updated =>
          if skipScoutCompleted then
            announce userId menuItems optimizedCart (.proposed userId updated.phase optimizedCart)
          else .call (.publishScoutCompleted userId) fun _ =>
            announce userId menuItems optimizedCart (.proposed userId updated.phase optimizedCart)
        | .error err => .throw err := by
  refine congrArg (Prog.call _) (funext fun r => ?_)
  rcases r with err | updated
  · rfl
  have hsent {reply : WorkflowReply} : (bestEffort (.publishMenuProposed userId
        (menuItems.filter (·.itemId ∈ optimizedCart.items.map (·.itemId)))) >>= fun _ =>
      bestEffort (.sendMenuOfTheDay userId (some optimizedCart)) >>= fun _ => .ret reply) =
      announce userId menuItems optimizedCart reply := by
    refine Eq.trans bestEffort_bind (congrArg (Prog.call _) (funext fun _ => ?_))
    exact bestEffort_bind
  cases skipScoutCompleted with
  | true => exact hsent
  | false =>
    refine congrArg (Prog.call _) (funext fun r => ?_)
    cases r <;> exact hsent

/-- What `swap` does once the menu is there. -/
def afterSwapMenu (id : RowId) (userId : String) (addressId restaurantId : Option String)
    (shortlist : ShortlistState) (nextRejected : List String) (menuItems : List MenuItem) :
    WorkflowProg WorkflowReply :=
  match selectNextCandidate menuItems shortlist.rankedItems nextRejected with
  | none => skip id userId (some shortlist) >>= fun reply =>
    .ret (.skipped userId reply.phase reply.currentItem)
  | some proposal => .call (.getSubscription userId) fun
    | .ok subscription => .call (.optimizeCart
        { userId, restaurantId, addressId,
          cartItems := [{ itemId := proposal.itemId, price := proposal.price, quantity := 1 }],
          remainingDailyBudget := subscription.dailyAvgLimit }) fun
      | .ok optimizedCart => storeProposal id userId menuItems
          { rankedItems := shortlist.rankedItems, currentItem := proposal } nextRejected true
          optimizedCart
      | .error err => .throw (mapUpstreamError err)
    | .error err => .throw (mapUpstreamError err)

/-- The items of a menu. -/
def parseMenu (restaurantId : Option String) (response : MenuResponse) : List MenuItem :=
  ((response.categories.getD []).flatMap (·.getD [])).filterMap (parseMenuItem restaurantId)

theorem fetchMenu_bind {β : Type} {f : List MenuItem → WorkflowProg β} :
    (fetchMenu userId addressId restaurantId >>= f) =
      .call (.get_restaurant_menu addressId restaurantId userId) fun
        | .ok response => f (parseMenu restaurantId response)
        | .error err => .throw (fetchMenuError err) := by
  refine congrArg (Prog.call _) (funext fun r => ?_)
  cases r <;> rfl

theorem swap_eq {shortlist : ShortlistState} {rejectedItemIds : List String} :
    swap id userId addressId restaurantId (some shortlist) rejectedItemIds =
      .call (.get_restaurant_menu addressId restaurantId userId) fun
        | .ok response => afterSwapMenu id userId addressId restaurantId shortlist
            (rejectedItemIds ++ [shortlist.currentItem.itemId]) (parseMenu restaurantId response)
        | .error err => .throw (fetchMenuError err) := by
  refine Eq.trans (fetchMenu_bind (f := fun menuItems => _)) ?_
  refine congrArg (Prog.call _) (funext fun r => ?_)
  rcases r with err | response
  · rfl
  · simp only [afterSwapMenu]
    cases selectNextCandidate (parseMenu restaurantId response) shortlist.rankedItems
      (rejectedItemIds ++ [shortlist.currentItem.itemId]) with
    | none => rfl
    | some proposal =>
      refine Eq.trans request_bind (congrArg (Prog.call _) (funext fun r => ?_))
      rcases r with err | subscription
      · rfl
      · refine Eq.trans request_bind (congrArg (Prog.call _) (funext fun r => ?_))
        cases r <;> rfl

/-- What the handlers start with: the read of the row of the day, with which `f` goes on. -/
def onRow (userId : String) (f : RowId → Option WorkflowRow → WorkflowProg WorkflowReply) :
    WorkflowProg WorkflowReply :=
  .call .now fun
    | .ok date => .call (.findUnique ⟨userId, startOfUtcDay date⟩) fun
      | .ok row => f ⟨userId, startOfUtcDay date⟩ row
      | .error err => .throw err
    | .error err => .throw err

/-- A program that reads the row of the day first. -/
theorem eq_onRow {userId : String} {g : ℤ → Option WorkflowRow → WorkflowProg WorkflowReply}
    {f : RowId → Option WorkflowRow → WorkflowProg WorkflowReply}
    (h : ∀ date row, g date row = f ⟨userId, startOfUtcDay date⟩ row) :
    ((Prog.await WorkflowOp.now : WorkflowProg ℤ) >>= fun date =>
      Prisma.findUnique ⟨userId, startOfUtcDay date⟩ >>= g date) = onRow userId f := by
  refine congrArg (Prog.call WorkflowOp.now) (funext fun r => ?_)
  rcases r with err | date
  · rfl
  · refine congrArg (Prog.call (WorkflowOp.findUnique _)) (funext fun r => ?_)
    rcases r with err | row
    · rfl
    · exact h date row

/-- What a decision comes to, on the row it was made on. -/
def onDecision (id : RowId) (userId : String) (row : WorkflowRow) : Decision → WorkflowProg WorkflowReply
  | .APPROVE => approve id userId row.addressId row.restaurantId row.optimizedCart row.shortlist
  | .SKIP => skip id userId row.shortlist >>= fun reply =>
    .ret (.skipped userId reply.phase reply.currentItem)
  | .SWAP =>
    swap id userId row.addressId row.restaurantId row.shortlist (row.rejectedItemIds.getD [])

theorem handleUserDecision_eq (userId : String) (decision : Decision) :
    handleUserDecision userId decision = onRow userId fun
      | id, some row =>
        if row.phase = .AWAITING_APPROVAL then onDecision id userId row decision
        else .throw (.http 409
          s!"workflow for userId {userId} is not awaiting approval (phase: {row.phase})")
      | _, none => .throw (.http 404 s!"no workflow state for userId {userId} today") := by
  refine eq_onRow fun date row => ?_
  rcases row with _ | row
  · rfl
  · change (if row.phase ≠ .AWAITING_APPROVAL then _ else _) = (if _ then _ else _)
    by_cases h : row.phase = .AWAITING_APPROVAL
    · rw [if_neg (not_not.mpr h), if_pos h]
      cases decision <;> rfl
    · rw [if_pos h, if_neg h]
      rfl

theorem finalizeIfPending_eq (userId : String) :
    finalizeIfPending userId = onRow userId fun
      | id, some row =>
        if row.phase = .AWAITING_APPROVAL then
          skip id userId row.shortlist >>= fun result =>
            .ret (.finalized userId true (some result.phase))
        else .ret (.finalized userId false none)
      | _, none => .ret (.finalized userId false none) := by
  refine eq_onRow fun date row => ?_
  rcases row with _ | row
  · rfl
  · change (if row.phase ≠ .AWAITING_APPROVAL then _ else _) = (if _ then _ else _)
    by_cases h : row.phase = .AWAITING_APPROVAL
    · rw [if_neg (not_not.mpr h), if_pos h]
      rfl
    · rw [if_pos h, if_neg h]
      rfl

theorem sendReminderIfPending_eq (userId : String) :
    sendReminderIfPending userId = onRow userId fun
      | _, some row =>
        if row.phase = .AWAITING_APPROVAL then
          .call (.sendMenuOfTheDay userId row.optimizedCart) fun _ => .ret (.reminded userId true)
        else .ret (.reminded userId false)
      | _, none => .ret (.reminded userId false) := by
  refine eq_onRow fun date row => ?_
  rcases row with _ | row
  · rfl
  · change (if row.phase ≠ .AWAITING_APPROVAL then _ else _) = (if _ then _ else _)
    by_cases h : row.phase = .AWAITING_APPROVAL
    · rw [if_neg (not_not.mpr h), if_pos h]
      exact bestEffort_bind
    · rw [if_pos h, if_neg h]
      rfl

/-- What `runScoutPhase` does once the menu has been ranked. -/
def afterAnalyze (id : RowId) (userId addressId restaurantId : String)
    (subscription : EscrowSubscription) (menuItems : List MenuItem)
    (rankedItems : List RankedMenuItem) : WorkflowProg WorkflowReply :=
  match selectNextCandidate menuItems rankedItems [] with
  | none => .throw (.http 409 s!"no eligible menu items to propose for userId {userId}")
  | some proposal => .call (.optimizeCart
      { userId, restaurantId := some restaurantId, addressId := some addressId,
        cartItems := [{ itemId := proposal.itemId, price := proposal.price, quantity := 1 }],
        remainingDailyBudget := subscription.dailyAvgLimit }) fun
    | .ok optimizedCart => storeProposal id userId menuItems
        { rankedItems, currentItem := proposal } [] false optimizedCart
    | .error err => .throw (mapUpstreamError err)

/-- What `runScoutPhase` does where the day may be scouted. -/
def scout (id : RowId) (userId addressId restaurantId : String) : WorkflowProg WorkflowReply :=
  .call (.upsert id addressId restaurantId) fun
    | .ok _ => .call (.getSubscription userId) fun
      | .ok subscription => .call (.getPreferenceProfile userId) fun
        | .ok profile => .call (.get_restaurant_menu (some addressId) (some restaurantId) userId) fun
          | .ok response => .call (.analyze
              { preferenceProfile := parsePreferenceProfile profile,
                menuItems := parseMenu (some restaurantId) response,
                weeklyBudget := weeklyBudget subscription }) fun
            | .ok rankedItems => afterAnalyze id userId addressId restaurantId subscription
                (parseMenu (some restaurantId) response) rankedItems
            | .error err => .throw (mapUpstreamError err)
          | .error err => .throw (fetchMenuError err)
        | .error err => .throw (mapUpstreamError err)
      | .error err => .throw (mapUpstreamError err)
    | .error err => .throw err

theorem scout_eq {userId addressId restaurantId : String} : (do
      let _ ← Prisma.upsert id addressId restaurantId
      let subscription ← request (.getSubscription userId)
      let profile ← request (.getPreferenceProfile userId)
      let menuItems ← fetchMenu userId (some addressId) (some restaurantId)
      let rankedItems ← request
        (.analyze { preferenceProfile := parsePreferenceProfile profile, menuItems,
                    weeklyBudget := weeklyBudget subscription })
      let some proposal := selectNextCandidate menuItems rankedItems []
        | throw (.http 409 s!"no eligible menu items to propose for userId {userId}")
      let optimizedCart ← request (.optimizeCart
        { userId, restaurantId := some restaurantId, addressId := some addressId,
          cartItems := [{ itemId := proposal.itemId, price := proposal.price, quantity := 1 }],
          remainingDailyBudget := subscription.dailyAvgLimit })
      storeProposal id userId menuItems { rankedItems, currentItem := proposal } [] false
        optimizedCart) = scout id userId addressId restaurantId := by
  refine Eq.trans await_bind (congrArg (Prog.call _) (funext fun r => ?_))
  rcases r with err | _
  · rfl
  refine Eq.trans request_bind (congrArg (Prog.call _) (funext fun r => ?_))
  rcases r with err | subscription
  · rfl
  refine Eq.trans request_bind (congrArg (Prog.call _) (funext fun r => ?_))
  rcases r with err | profile
  · rfl
  refine Eq.trans fetchMenu_bind (congrArg (Prog.call _) (funext fun r => ?_))
  rcases r with err | response
  · rfl
  refine Eq.trans request_bind (congrArg (Prog.call _) (funext fun r => ?_))
  rcases r with err | rankedItems
  · rfl
  simp only [afterAnalyze]
  cases selectNextCandidate (parseMenu (some restaurantId) response) rankedItems [] with
  | none => rfl
  | some proposal =>
    refine Eq.trans request_bind (congrArg (Prog.call _) (funext fun r => ?_))
    cases r <;> rfl

theorem runScoutPhase_eq (userId addressId restaurantId : String) :
    runScoutPhase userId addressId restaurantId = onRow userId fun
      | id, some row =>
        if row.phase = .SCOUTING then scout id userId addressId restaurantId
        else .throw (.http 409
          s!"workflow already scouted for userId {userId} today (phase: {row.phase})")
      | id, none => scout id userId addressId restaurantId := by
  refine eq_onRow fun date row => ?_
  rcases row with _ | row
  · exact scout_eq
  · change (if row.phase ≠ .SCOUTING then _ else _) = (if _ then _ else _)
    by_cases h : row.phase = .SCOUTING
    · rw [if_neg (not_not.mpr h), if_pos h]
      exact scout_eq
    · rw [if_pos h, if_neg h]
      rfl

end WorkflowService

/-- A row that awaits approval, as a scout leaves it. -/
def proposedRow : WorkflowRow where
  phase := .AWAITING_APPROVAL
  addressId := some "home"
  restaurantId := some "r"
  shortlist := some
    { rankedItems := []
      currentItem := { itemId := "i", restaurantId := "r", name := "thali", price := 100 } }
  optimizedCart := some { items := [], baseCost := 100, finalTotal := 100 }
  rejectedItemIds := some []

end Gusto.Workflow
