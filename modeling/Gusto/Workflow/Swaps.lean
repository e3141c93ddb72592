import Gusto.Lib.Fault
import Gusto.Workflow.Diet
import Mathlib.Data.Finset.Card

/-!
# A day of SWAPs

A scout that succeeds and then SWAPs one after the other, while no upstream fails.  The ranked items
are those of the scout; each SWAP fetches a menu of its own.

* `Made`: what is proposed and what the row holds, after each SWAP: no item is proposed twice, the
  rejected items are the earlier proposals, each proposal is the best that was left;
* `made_of_run`: this holds on every such day, and the day is SKIPPED after as many SWAPs as there
  are ranked items, at the latest;
* `SwapComes`, `ScoutComes`: what one SWAP and the scout come to, with what they send.
-/

set_option autoImplicit false

namespace Gusto.Workflow

open Effects Search WorkflowService

/-! ### One handler -/

/-- A call whose failure is logged. -/
def WorkflowOp.isBestEffort : WorkflowOp → Bool
  | .sendMenuOfTheDay _ _ | .publishScoutCompleted _ | .publishMenuProposed _ _
  | .publishMealApproved _ | .publishMealSkipped _ => true
  | _ => false

/-- No upstream fails. -/
def Env.Answers (env : Env) : Prop := ∀ i : WorkflowOp, i.isBestEffort = false → (env i).error = none

theorem Env.Answers.tableServed {env : Env} (h : env.Answers) : env.TableServed := by
  intro i hi
  refine h i ?_
  cases i <;> first | rfl | cases hi

abbrev WorkflowDone : Type := Done WorkflowStates WorkflowOp Env Err WorkflowReply

/-- A handler run to its end, with the calls that it makes. -/
def WorkflowCall.handled (call : WorkflowCall) (userId : String) (today : ℤ) (env : Env)
    (t : WorkflowStates) : WorkflowDone :=
  (call.prog userId).play (under today) (fun _ => env) t

theorem outcome_eq {call : WorkflowCall} {userId : String} {today : ℤ} {env : Env}
    {t : WorkflowStates} : call.outcome userId today env t =
      ((call.handled userId today env t).result, (call.handled userId today env t).state) :=
  Prog.play_const.symm

/-- A call by which notification-service learns of a proposal. -/
def WorkflowOp.notifies : WorkflowOp → Bool
  | .publishMenuProposed _ _ | .sendMenuOfTheDay _ _ => true
  | _ => false

/-- The calls by which notification-service learns of proposals. -/
def sentBy {χ : Type} (events : List (Event WorkflowStates WorkflowOp χ)) : List WorkflowOp :=
  (events.map (·.call)).filter WorkflowOp.notifies

/-- What a handler comes to: its reply, the row it leaves, and what it sends. -/
structure Comes (id : RowId) (reply : Except Err WorkflowReply) (row : WorkflowRow)
    (sent : List WorkflowOp) (d : WorkflowDone) : Prop where
  result : d.result = reply
  row : d.state id = some row
  sent : sentBy d.events = sent

section Calls

variable {today : ℤ} {env : Env} {t : WorkflowStates} {id : RowId} {reply : Except Err WorkflowReply}
  {row : WorkflowRow} {sent : List WorkflowOp} {userId : String}

theorem comes_ret {r : WorkflowReply} (hrow : t id = some row) :
    Comes id (.ok r) row [] ((Prog.ret r : WorkflowProg _).play (under today) (fun _ => env) t) :=
  ⟨rfl, hrow, rfl⟩

theorem comes_throw {err : Err} (hrow : t id = some row) :
    Comes id (.error err) row []
      ((Prog.throw err : WorkflowProg _).play (under today) (fun _ => env) t) :=
  ⟨rfl, hrow, rfl⟩

/-- A call that is answered. -/
theorem comes_call {i : WorkflowOp} {k : Except Err i.Answer → WorkflowProg WorkflowReply}
    {x : Except Err i.Answer × WorkflowStates} (hi : i.notifies = false)
    (hx : under today env i t = x)
    (h : Comes id reply row sent ((k x.1).play (under today) (fun _ => env) x.2)) :
    Comes id reply row sent ((Prog.call i k).play (under today) (fun _ => env) t) := by
  subst hx
  obtain ⟨hresult, hrow, hsent⟩ := h
  refine ⟨hresult, hrow, ?_⟩
  rw [Prog.play_call, sentBy, List.map_cons, List.filter_cons_of_neg (by simp [hi])]
  exact hsent

/-- A call whose failure is logged. -/
theorem comes_sent {i : WorkflowOp} {p : WorkflowProg WorkflowReply} (hi : i ≠ .now)
    (hserve : (serve today (env i) i t).2 = t)
    (h : Comes id reply row sent (p.play (under today) (fun _ => env) t)) :
    Comes id reply row (if i.notifies then i :: sent else sent)
      ((Prog.call i fun _ => p).play (under today) (fun _ => env) t) := by
  have hstate : (under today env i t).2 = t := by
    cases he : (env i).error with
    | none => rw [under_ok he, hserve]
    | some err => rw [under_error he hi]
  obtain ⟨hresult, hrow, hsent⟩ := h
  rw [Prog.play_call, hstate]
  refine ⟨hresult, hrow, ?_⟩
  rw [← hsent, sentBy, List.map_cons, List.filter_cons]
  rfl

end Calls

/-! ### The programs -/

section Programs

variable {today : ℤ} {env : Env} {t : WorkflowStates} {id : RowId} {userId : String} {old : WorkflowRow}

/-- What is sent of a proposal. -/
def noticesOf (userId : String) (menuItems : List MenuItem) (optimizedCart : OptimizedCart) :
    List WorkflowOp :=
  [.publishMenuProposed userId (menuItems.filter (·.itemId ∈ optimizedCart.items.map (·.itemId))),
    .sendMenuOfTheDay userId (some optimizedCart)]

theorem storeProposal_comes {menuItems : List MenuItem} {rankedItems : List RankedMenuItem}
    {rejectedItemIds : List String} {proposal : MenuItem} {skipScoutCompleted : Bool}
    {optimizedCart : OptimizedCart} (henv : env.Answers) (hold : t id = some old) :
    Comes id (.ok (.proposed userId .AWAITING_APPROVAL optimizedCart))
      ((proposalUpdate rankedItems rejectedItemIds proposal optimizedCart).write old)
      (noticesOf userId menuItems optimizedCart)
      ((storeProposal id userId menuItems { rankedItems, currentItem := proposal } rejectedItemIds
        skipScoutCompleted optimizedCart).play (under today) (fun _ => env) t) := by
  rw [storeProposal_eq]
  refine comes_call rfl (under_update henv.tableServed hold) ?_
  have hannounce : Comes id (.ok (.proposed userId .AWAITING_APPROVAL optimizedCart))
      ((proposalUpdate rankedItems rejectedItemIds proposal optimizedCart).write old)
      (noticesOf userId menuItems optimizedCart)
      ((announce userId menuItems optimizedCart (.proposed userId .AWAITING_APPROVAL optimizedCart)).play
        (under today) (fun _ => env) (Function.update t id (some
          ((proposalUpdate rankedItems rejectedItemIds proposal optimizedCart).write old)))) :=
    comes_sent (i := .publishMenuProposed _ _) nofun rfl
      (comes_sent (i := .sendMenuOfTheDay _ _) nofun rfl (comes_ret (Function.update_self ..)))
  cases skipScoutCompleted with
  | true => exact hannounce
  | false => exact comes_sent (i := .publishScoutCompleted userId) nofun rfl hannounce

/-- What is written of a skip. -/
def skipUpdate : WorkflowUpdate := { phase := .SKIPPED, decision := some .SKIP }

theorem skip_comes {shortlist : ShortlistState} {f : SkipReply → WorkflowReply} (henv : env.Answers)
    (hold : t id = some old) :
    Comes id (.ok (f ⟨.SKIPPED, shortlist.currentItem⟩)) (skipUpdate.write old) []
      ((skip id userId (some shortlist) >>= fun reply => .ret (f reply)).play (under today)
        (fun _ => env) t) := by
  rw [skip_eq, Prog.call_bind]
  refine comes_call rfl (under_update henv.tableServed hold) ?_
  refine comes_call rfl (under_ok (henv (.rollover userId) rfl)) ?_
  exact comes_sent (i := .publishMealSkipped userId) nofun rfl (comes_ret (Function.update_self ..))

/-- The items that a SWAP passes over. -/
def WorkflowRow.nextRejected (row : WorkflowRow) (shortlist : ShortlistState) : List String :=
  row.rejectedItemIds.getD [] ++ [shortlist.currentItem.itemId]

/-- **A SWAP** of a row that awaits approval: it puts up the next candidate, or skips the day. -/
inductive SwapComes (env : Env) (id : RowId) (old : WorkflowRow) (shortlist : ShortlistState)
    (d : WorkflowDone) : Prop
  | proposed (proposal : MenuItem)
      (hselected : selectNextCandidate (env.menu id.userId old.addressId old.restaurantId)
        shortlist.rankedItems (old.nextRejected shortlist) = some proposal)
      (h : Comes id
        (.ok (.proposed id.userId .AWAITING_APPROVAL
          (env.proposedCart id.userId old.addressId old.restaurantId proposal)))
        ((proposalUpdate shortlist.rankedItems (old.nextRejected shortlist) proposal
          (env.proposedCart id.userId old.addressId old.restaurantId proposal)).write old)
        (noticesOf id.userId (env.menu id.userId old.addressId old.restaurantId)
          (env.proposedCart id.userId old.addressId old.restaurantId proposal)) d)
  | skipped
      (hselected : selectNextCandidate (env.menu id.userId old.addressId old.restaurantId)
        shortlist.rankedItems (old.nextRejected shortlist) = none)
      (h : Comes id (.ok (.skipped id.userId .SKIPPED shortlist.currentItem)) (skipUpdate.write old) [] d)

theorem swapComes {shortlist : ShortlistState} (henv : env.Answers) (hold : t id = some old) :
    SwapComes env id old shortlist
      ((swap id id.userId old.addressId old.restaurantId (some shortlist)
        (old.rejectedItemIds.getD [])).play (under today) (fun _ => env) t) := by
  have hmenu : under today env (.get_restaurant_menu old.addressId old.restaurantId id.userId) t = _ :=
    under_ok (henv _ rfl)
  rw [swap_eq]
  cases hselected : selectNextCandidate (env.menu id.userId old.addressId old.restaurantId)
      shortlist.rankedItems (old.nextRejected shortlist) with
  | none =>
    refine .skipped hselected (comes_call rfl hmenu ?_)
    dsimp only [serve, afterSwapMenu]
    rw [Env.menu, WorkflowRow.nextRejected] at hselected
    rw [hselected]
    exact skip_comes (f := fun reply => .skipped id.userId reply.phase reply.currentItem) henv hold
  | some proposal =>
    refine .proposed proposal hselected (comes_call rfl hmenu ?_)
    dsimp only [serve, afterSwapMenu]
    rw [Env.menu, WorkflowRow.nextRejected] at hselected
    rw [hselected]
    refine comes_call rfl (under_ok (henv (.getSubscription id.userId) rfl)) ?_
    refine comes_call rfl (under_ok (henv (.optimizeCart _) rfl)) ?_
    exact storeProposal_comes henv hold

/-- A scout that succeeds: the day had not been scouted, and the best of the menu is put up. -/
structure ScoutComes (env : Env) (id : RowId) (addressId restaurantId : String) (proposal : MenuItem)
    (old : WorkflowRow) (d : WorkflowDone) : Prop where
  selected : selectNextCandidate (env.menu id.userId (some addressId) (some restaurantId))
    (env.rankedItems id.userId addressId restaurantId) [] = some proposal
  address : old.addressId = some addressId
  restaurant : old.restaurantId = some restaurantId
  comes : Comes id
    (.ok (.proposed id.userId .AWAITING_APPROVAL
      (env.proposedCart id.userId (some addressId) (some restaurantId) proposal)))
    ((proposalUpdate (env.rankedItems id.userId addressId restaurantId) [] proposal
      (env.proposedCart id.userId (some addressId) (some restaurantId) proposal)).write old)
    (noticesOf id.userId (env.menu id.userId (some addressId) (some restaurantId))
      (env.proposedCart id.userId (some addressId) (some restaurantId) proposal)) d

variable (id) in
theorem scoutComes {addressId restaurantId : String} {reply : WorkflowReply} (henv : env.Answers)
    (hok : ((scout id id.userId addressId restaurantId).play (under today) (fun _ => env) t).result =
      .ok reply) :
    ∃ proposal old, ScoutComes env id addressId restaurantId proposal old
      ((scout id id.userId addressId restaurantId).play (under today) (fun _ => env) t) := by
  generalize hrow : ({ (t id).getD { phase := .SCOUTING } with
    addressId := some addressId, restaurantId := some restaurantId } : WorkflowRow) = old
  have hupsert : under today env (.upsert id addressId restaurantId) t =
      (.ok old, Function.update t id (some old)) := by
    rw [under_ok (henv _ rfl), ← hrow]
    rfl
  -- the calls up to the ranking are answered
  have hasked : ∀ {reply row sent}, Comes id reply row sent
      ((afterAnalyze id id.userId addressId restaurantId (env.subscription id.userId)
        (env.menu id.userId (some addressId) (some restaurantId))
        (env.rankedItems id.userId addressId restaurantId)).play (under today) (fun _ => env)
          (Function.update t id (some old))) →
      Comes id reply row sent
        ((scout id id.userId addressId restaurantId).play (under today) (fun _ => env) t) := by
    intro reply row sent h
    refine comes_call rfl hupsert ?_
    refine comes_call rfl (under_ok (henv (.getSubscription id.userId) rfl)) ?_
    refine comes_call rfl (under_ok (henv (.getPreferenceProfile id.userId) rfl)) ?_
    refine comes_call rfl (under_ok (henv (.get_restaurant_menu _ _ id.userId) rfl)) ?_
    exact comes_call rfl (under_ok (henv (.analyze _) rfl)) h
  cases hselected : selectNextCandidate (env.menu id.userId (some addressId) (some restaurantId))
      (env.rankedItems id.userId addressId restaurantId) [] with
  | none =>
    have hthrown : Comes id (.error (.http 409
        s!"no eligible menu items to propose for userId {id.userId}")) old []
        ((scout id id.userId addressId restaurantId).play (under today) (fun _ => env) t) := by
      refine hasked ?_
      unfold afterAnalyze
      rw [hselected]
      exact comes_throw (Function.update_self ..)
    cases hok.symm.trans hthrown.result
  | some proposal =>
    refine ⟨proposal, old, hselected, by rw [← hrow], by rw [← hrow], hasked ?_⟩
    unfold afterAnalyze
    rw [hselected]
    refine comes_call rfl (under_ok (henv (.optimizeCart _) rfl)) ?_
    exact storeProposal_comes henv (Function.update_self ..)

end Programs

/-! ### The handlers -/

section Handlers

variable {today : ℤ} {env : Env} {t : WorkflowStates} {userId : String} {old : WorkflowRow}

theorem comes_onRow {f : RowId → Option WorkflowRow → WorkflowProg WorkflowReply} {id : RowId}
    {reply : Except Err WorkflowReply} {row : WorkflowRow} {sent : List WorkflowOp} (henv : env.Answers)
    (h : Comes id reply row sent ((f (todaysRow userId today) (t (todaysRow userId today))).play
      (under today) (fun _ => env) t)) :
    Comes id reply row sent ((onRow userId f).play (under today) (fun _ => env) t) := by
  refine comes_call rfl under_now ?_
  dsimp only [serve]
  rw [startOfUtcDay_now]
  exact comes_call rfl (under_ok (henv (.findUnique _) rfl)) h

theorem result_onRow {f : RowId → Option WorkflowRow → WorkflowProg WorkflowReply}
    (henv : env.Answers) :
    ((onRow userId f).play (under today) (fun _ => env) t).result =
      ((f (todaysRow userId today) (t (todaysRow userId today))).play (under today)
        (fun _ => env) t).result := by
  have heval : (onRow userId f).eval (under today) env t =
      (f (todaysRow userId today) (t (todaysRow userId today))).eval (under today) env t :=
    eval_onRow henv.tableServed
  rw [← Prog.play_const, ← Prog.play_const] at heval
  exact congrArg Prod.fst heval

/-- A SWAP of what does not await approval is refused. -/
theorem swap_refused (henv : env.Answers) (hold : t (todaysRow userId today) = some old)
    (hphase : old.phase ≠ .AWAITING_APPROVAL) :
    Comes (todaysRow userId today) (.error (.http 409
        s!"workflow for userId {userId} is not awaiting approval (phase: {old.phase})")) old []
      ((WorkflowCall.handleUserDecision .SWAP).handled userId today env t) := by
  unfold WorkflowCall.handled WorkflowCall.prog
  dsimp only
  rw [handleUserDecision_eq]
  refine comes_onRow henv ?_
  rw [hold]
  dsimp only
  rw [if_neg hphase]
  exact comes_throw hold

theorem swap_handled {shortlist : ShortlistState} (henv : env.Answers)
    (hold : t (todaysRow userId today) = some old) (hphase : old.phase = .AWAITING_APPROVAL)
    (hshortlist : old.shortlist = some shortlist) :
    SwapComes env (todaysRow userId today) old shortlist
      ((WorkflowCall.handleUserDecision .SWAP).handled userId today env t) := by
  have hread : ∀ {reply row sent}, Comes (todaysRow userId today) reply row sent
      ((swap (todaysRow userId today) userId old.addressId old.restaurantId (some shortlist)
        (old.rejectedItemIds.getD [])).play (under today) (fun _ => env) t) →
      Comes (todaysRow userId today) reply row sent
        ((WorkflowCall.handleUserDecision .SWAP).handled userId today env t) := by
    intro reply row sent h
    unfold WorkflowCall.handled WorkflowCall.prog
    dsimp only
    rw [handleUserDecision_eq]
    refine comes_onRow henv ?_
    rw [hold]
    dsimp only
    rw [if_pos hphase, onDecision, hshortlist]
    exact h
  cases swapComes henv hold with
  | proposed proposal hselected h => exact .proposed proposal hselected (hread h)
  | skipped hselected h => exact .skipped hselected (hread h)

theorem scout_handled {addressId restaurantId : String} {reply : WorkflowReply} (henv : env.Answers)
    (hok : ((WorkflowCall.runScoutPhase addressId restaurantId).handled userId today env t).result =
      .ok reply) :
    ∃ proposal old, ScoutComes env (todaysRow userId today) addressId restaurantId proposal old
      ((WorkflowCall.runScoutPhase addressId restaurantId).handled userId today env t) := by
  unfold WorkflowCall.handled WorkflowCall.prog at hok ⊢
  dsimp only at hok ⊢
  rw [runScoutPhase_eq] at hok ⊢
  rw [result_onRow henv] at hok
  cases hrow : t (todaysRow userId today) with
  | none =>
    rw [hrow] at hok
    obtain ⟨proposal, old, hscout⟩ := scoutComes (todaysRow userId today) henv hok
    refine ⟨proposal, old, { hscout with comes := comes_onRow henv ?_ }⟩
    rw [hrow]
    exact hscout.comes
  | some row =>
    rw [hrow] at hok
    dsimp only at hok
    by_cases hphase : row.phase = .SCOUTING
    · rw [if_pos hphase] at hok
      obtain ⟨proposal, old, hscout⟩ := scoutComes (todaysRow userId today) henv hok
      refine ⟨proposal, old, { hscout with comes := comes_onRow henv ?_ }⟩
      rw [hrow]
      dsimp only
      rw [if_pos hphase]
      exact hscout.comes
    · rw [if_neg hphase] at hok
      cases hok

end Handlers

/-! ### A day -/

/-- What came of a handler, and the environment it was called in. -/
structure Handled where
  env : Env
  reply : Except Err WorkflowReply
  row : Option WorkflowRow
  sent : List WorkflowOp

def WorkflowCall.step (call : WorkflowCall) (userId : String) (today : ℤ) (t : WorkflowStates)
    (env : Env) : WorkflowStates × Handled :=
  let d := call.handled userId today env t
  (d.state, ⟨env, d.result, d.state (todaysRow userId today), sentBy d.events⟩)

def swapStep (userId : String) (today : ℤ) (t : WorkflowStates) (env : Env) :
    Option (WorkflowStates × Handled) :=
  some ((WorkflowCall.handleUserDecision .SWAP).step userId today t env)

/-- The item that a handler has put up. -/
def Handled.proposal (o : Handled) : Option MenuItem :=
  match o.reply with
  | .ok (.proposed _ _ _) => (o.row.bind (·.shortlist)).map (·.currentItem)
  | _ => none

def proposals (os : List Handled) : List MenuItem := os.filterMap Handled.proposal

def itemIds (items : List MenuItem) : List String := items.map (·.itemId)

section Day

variable (userId addressId restaurantId : String) (rankedItems : List RankedMenuItem)

/-- The last proposal is stored, with the cart that the optimiser has made for it. -/
def Stored (os : List Handled) (row : WorkflowRow) : Prop :=
  ∃ o ∈ os, ∃ proposal, o.proposal = some proposal ∧ (proposals os).getLast? = some proposal ∧
    row.shortlist = some { rankedItems, currentItem := proposal } ∧
    row.optimizedCart =
      some (o.env.proposedCart userId (some addressId) (some restaurantId) proposal)

/-- What has been proposed by `os`, and what the row holds of it. -/
structure Made (os : List Handled) (row : WorkflowRow) : Prop where
  distinct : (itemIds (proposals os)).Nodup
  rejected : row.rejectedItemIds = some (itemIds (proposals os).dropLast)
  stored : Stored userId addressId restaurantId rankedItems os row
  best : ∀ pre o post proposal, os = pre ++ o :: post → o.proposal = some proposal →
    Best (o.env.menu userId (some addressId) (some restaurantId)) rankedItems
      (itemIds (proposals pre)) proposal

/-- While the row awaits approval, every step has put something up. -/
structure Underway (os : List Handled) (row : WorkflowRow) : Prop
    extends Made userId addressId restaurantId rankedItems os row where
  address : row.addressId = some addressId
  restaurant : row.restaurantId = some restaurantId
  phase : row.phase = .AWAITING_APPROVAL ∧ (proposals os).length = os.length ∨ row.phase = .SKIPPED

end Day

section Steps

variable {userId addressId restaurantId : String} {rankedItems : List RankedMenuItem}
  {os : List Handled} {o : Handled} {row row' : WorkflowRow} {proposal : MenuItem}

theorem proposals_snoc : proposals (os ++ [o]) = proposals os ++ o.proposal.toList := by
  unfold proposals
  cases h : o.proposal <;> simp [h]

theorem itemIds_append {items items' : List MenuItem} :
    itemIds (items ++ items') = itemIds items ++ itemIds items' := List.map_append

theorem Best.ranked {menuItems : List MenuItem} {rejectedItemIds : List String}
    (h : Best menuItems rankedItems rejectedItemIds proposal) :
    proposal.itemId ∈ rankedItems.map (·.itemId) ∧ proposal.itemId ∉ rejectedItemIds := by
  obtain ⟨r, ⟨l₁, l₂, rfl, heligible, -⟩, hmenu⟩ := h
  rw [itemId_of_menuById hmenu]
  exact ⟨List.mem_map.mpr ⟨r, by simp, rfl⟩, heligible.1⟩

/-- The row at the end of a day on which nothing more is put up. -/
theorem Underway.closed (h : Underway userId addressId restaurantId rankedItems os row)
    (ho : o.proposal = none) (hcolumns : row' = { row with phase := row'.phase, decision := row'.decision })
    (hphase : row'.phase = .SKIPPED) :
    Underway userId addressId restaurantId rankedItems (os ++ [o]) row' := by
  have hsame : proposals (os ++ [o]) = proposals os := by rw [proposals_snoc, ho]; simp
  obtain ⟨⟨hdistinct, hrejected, hstored, hbest⟩, haddress, hrestaurant, -⟩ := h
  rw [hcolumns]
  refine ⟨⟨?_, ?_, ?_, ?_⟩, haddress, hrestaurant, .inr hphase⟩
  · rwa [hsame]
  · rwa [hsame]
  · obtain ⟨o', ho', p, hp, hlast, hcart⟩ := hstored
    exact ⟨o', List.mem_append_left _ ho', p, hp, by rwa [hsame], hcart⟩
  · intro pre o' post p hsplit hp
    rcases snoc_eq_append_cons hsplit with ⟨rfl, rfl, -⟩ | ⟨post', hsplit', -⟩
    · rw [ho] at hp
      cases hp
    · exact hbest pre o' post' p hsplit' hp

/-- A step that puts up the best that is left. -/
theorem Underway.proposed {earlier : List MenuItem} (hos : proposals os = earlier)
    (hdistinct : (itemIds earlier).Nodup)
    (hbest : ∀ pre o post proposal, os = pre ++ o :: post → o.proposal = some proposal →
      Best (o.env.menu userId (some addressId) (some restaurantId)) rankedItems
        (itemIds (proposals pre)) proposal)
    (hlength : earlier.length = os.length) (ho : o.proposal = some proposal)
    (hnext : Best (o.env.menu userId (some addressId) (some restaurantId)) rankedItems
      (itemIds earlier) proposal)
    (hrow : row = (proposalUpdate rankedItems (itemIds earlier) proposal
      (o.env.proposedCart userId (some addressId) (some restaurantId) proposal)).write row')
    (haddress : row'.addressId = some addressId) (hrestaurant : row'.restaurantId = some restaurantId) :
    Underway userId addressId restaurantId rankedItems (os ++ [o]) row := by
  have hall : proposals (os ++ [o]) = earlier ++ [proposal] := by
    rw [proposals_snoc, ho, hos]
    rfl
  subst hrow
  refine ⟨⟨?_, ?_, ?_, ?_⟩, haddress, hrestaurant, .inl ⟨rfl, ?_⟩⟩
  · rw [hall, itemIds_append]
    refine List.nodup_append.mpr ⟨hdistinct, List.nodup_singleton _, ?_⟩
    rintro itemId hmem _ hlast rfl
    rw [itemIds, List.map_singleton, List.mem_singleton] at hlast
    exact hnext.ranked.2 (hlast ▸ hmem)
  · rw [hall, List.dropLast_concat]
    rfl
  · exact ⟨o, by simp, proposal, ho, by rw [hall]; simp, rfl, rfl⟩
  · intro pre o' post p hsplit hp
    rcases snoc_eq_append_cons hsplit with ⟨rfl, rfl, -⟩ | ⟨post', hsplit', -⟩
    · cases ho.symm.trans hp
      rw [hos]
      exact hnext
    · exact hbest pre o' post' p hsplit' hp
  · rw [hall]
    simp [hlength]

end Steps

/-! ### Runs -/

section Runs

variable {userId addressId restaurantId : String} {rankedItems : List RankedMenuItem} {today : ℤ}
  {t t' : WorkflowStates} {os : List Handled} {o : Handled} {env : Env} {row : WorkflowRow}

/-- What a handler has put up is the current item of the row that it leaves. -/
theorem proposal_of_comes {call : WorkflowCall} {phase : WorkflowPhase} {cart : OptimizedCart}
    {shortlist : ShortlistState} {sent : List WorkflowOp}
    (h : Comes (todaysRow userId today) (.ok (.proposed userId phase cart)) row sent
      (call.handled userId today env t)) (hshortlist : row.shortlist = some shortlist) :
    (call.step userId today t env).2.proposal = some shortlist.currentItem := by
  unfold WorkflowCall.step Handled.proposal
  dsimp only
  rw [h.result, h.row, Option.bind_some, hshortlist]
  rfl

theorem proposal_of_refused {call : WorkflowCall} {err : Err} {sent : List WorkflowOp} {id : RowId}
    (h : Comes id (.error err) row sent (call.handled userId today env t)) :
    (call.step userId today t env).2.proposal = none := by
  unfold WorkflowCall.step Handled.proposal
  dsimp only
  rw [h.result]

theorem proposal_of_skipped {call : WorkflowCall} {phase : WorkflowPhase} {item : MenuItem}
    {sent : List WorkflowOp} {id : RowId}
    (h : Comes id (.ok (.skipped userId phase item)) row sent (call.handled userId today env t)) :
    (call.step userId today t env).2.proposal = none := by
  unfold WorkflowCall.step Handled.proposal
  dsimp only
  rw [h.result]

/-- The day that a scout begins. -/
theorem underway_scout {reply : WorkflowReply} (henv : env.Answers)
    (hok : ((WorkflowCall.runScoutPhase addressId restaurantId).step userId today t env).2.reply =
      .ok reply) :
    ∃ row, ((WorkflowCall.runScoutPhase addressId restaurantId).step userId today t env).1
        (todaysRow userId today) = some row ∧
      Underway userId addressId restaurantId (env.rankedItems userId addressId restaurantId)
        [((WorkflowCall.runScoutPhase addressId restaurantId).step userId today t env).2] row := by
  obtain ⟨proposal, old, hscout⟩ := scout_handled henv hok
  refine ⟨_, hscout.comes.row, ?_⟩
  exact Underway.proposed (show proposals [] = [] from rfl) List.nodup_nil (fun pre o post _ h => by simp at h) rfl
    (proposal_of_comes hscout.comes rfl) (best_of_selected hscout.selected) rfl hscout.address
    hscout.restaurant

/-- One SWAP. -/
theorem underway_swap (h : Underway userId addressId restaurantId rankedItems os row)
    (hrow : t (todaysRow userId today) = some row) (henv : env.Answers)
    (hs : swapStep userId today t env = some (t', o)) :
    ∃ row', t' (todaysRow userId today) = some row' ∧
      Underway userId addressId restaurantId rankedItems (os ++ [o]) row' := by
  cases hs
  by_cases hphase : row.phase = .AWAITING_APPROVAL
  · obtain ⟨-, hlength⟩ := h.phase.resolve_right (by rw [hphase]; nofun)
    obtain ⟨-, -, current, -, hlast, hshortlist, -⟩ := h.stored
    have hrejected : row.nextRejected { rankedItems, currentItem := current } =
        itemIds (proposals os) := by
      rw [WorkflowRow.nextRejected, h.rejected, Option.getD_some]
      conv_rhs => rw [← List.dropLast_append_getLast? current hlast, itemIds_append]
      rfl
    have hswap := swap_handled henv hrow hphase hshortlist
    cases hswap with
    | proposed proposal hselected hcomes =>
      rw [hrejected, h.address, h.restaurant] at hselected hcomes
      refine ⟨_, hcomes.row, ?_⟩
      exact Underway.proposed rfl h.distinct h.best hlength (proposal_of_comes hcomes rfl)
        (best_of_selected hselected) rfl h.address h.restaurant
    | skipped hselected hcomes =>
      exact ⟨_, hcomes.row, h.closed (proposal_of_skipped hcomes) rfl rfl⟩
  · have hcomes := swap_refused henv hrow hphase
    refine ⟨_, hcomes.row, h.closed (proposal_of_refused hcomes) rfl ?_⟩
    exact h.phase.resolve_left fun hawaits => hphase hawaits.1

/-- As long as the row awaits approval, there have been no more proposals than ranked items. -/
theorem Underway.skipped {swaps : List Handled} {scout : Handled}
    (h : Underway userId addressId restaurantId rankedItems (scout :: swaps) row)
    (hcount : (rankedItems.map (·.itemId)).toFinset.card ≤ swaps.length) : row.phase = .SKIPPED := by
  refine h.phase.resolve_left ?_
  rintro ⟨-, hlength⟩
  have hranked : (itemIds (proposals (scout :: swaps))).toFinset ⊆
      (rankedItems.map (·.itemId)).toFinset := by
    intro itemId hmem
    obtain ⟨proposal, hproposal, rfl⟩ := List.mem_map.mp (List.mem_toFinset.mp hmem)
    obtain ⟨o, ho, hp⟩ := List.mem_filterMap.mp hproposal
    obtain ⟨pre, post, hsplit⟩ := List.append_of_mem ho
    exact List.mem_toFinset.mpr (h.best pre o post proposal hsplit hp).ranked.1
  have hcard := Finset.card_le_card hranked
  rw [List.toFinset_card_of_nodup h.distinct, itemIds, List.length_map, hlength] at hcard
  exact absurd (hcard.trans hcount) (by simp)

/-- **A day of SWAPs.** After a scout that succeeds and any number of SWAPs, no item has been proposed
twice, the rejected items are the earlier proposals, each proposal was the best that was left, with
its own cart, and the day is SKIPPED after as many SWAPs as there are ranked items. -/
theorem made_of_run {scout : Env} {reply : WorkflowReply} {swaps : List Handled}
    (hscout : scout.Answers)
    (hok : ((WorkflowCall.runScoutPhase addressId restaurantId).step userId today t scout).2.reply =
      .ok reply)
    (hr : Run (swapStep userId today) (fun _ _ env => env.Answers)
      ((WorkflowCall.runScoutPhase addressId restaurantId).step userId today t scout).1 t' swaps) :
    ∃ row, t' (todaysRow userId today) = some row ∧
      Made userId addressId restaurantId (scout.rankedItems userId addressId restaurantId)
        (((WorkflowCall.runScoutPhase addressId restaurantId).step userId today t scout).2 :: swaps)
        row ∧
      (((scout.rankedItems userId addressId restaurantId).map (·.itemId)).toFinset.card ≤ swaps.length →
        row.phase = .SKIPPED) := by
  have hrun := hr.invariant (fun swaps t => ∃ row, t (todaysRow userId today) = some row ∧
    Underway userId addressId restaurantId (scout.rankedItems userId addressId restaurantId)
      (((WorkflowCall.runScoutPhase addressId restaurantId).step userId today _ scout).2 :: swaps) row)
    (underway_scout hscout hok) (fun os s env s' o ⟨row, hrow, h⟩ henv hs =>
      underway_swap h hrow henv hs)
  obtain ⟨row, hrow, h⟩ := hrun
  exact ⟨row, hrow, h.toMade, h.skipped⟩

end Runs

/-! ### Two dishes -/

/-- A menu of two dishes, both of them ranked. -/
def twoDishesEnv : Env
  | .get_restaurant_menu _ _ _ => { menu := twoDishes }
  | .analyze _ => { rankedItems := rankedDishes }
  | _ => {}

theorem twoDishesEnv_answers : twoDishesEnv.Answers := by
  intro i _
  cases i <;> rfl

/-- The scout of two dishes. -/
def scouted : WorkflowStates × Handled :=
  (WorkflowCall.runScoutPhase "home" "rest-1").step "u" 0 (fun _ => none) twoDishesEnv

/-- A SWAP after it. -/
def swapped (t : WorkflowStates) : WorkflowStates × Handled :=
  (WorkflowCall.handleUserDecision .SWAP).step "u" 0 t twoDishesEnv

/-- The second SWAP finds nothing more, and the day is skipped. -/
theorem made_twoDishes :
    ∃ row, (swapped (swapped scouted.1).1).1 (todaysRow "u" 0) = some row ∧
      Made "u" "home" "rest-1" rankedDishes
        [scouted.2, (swapped scouted.1).2, (swapped (swapped scouted.1).1).2] row ∧
      row.phase = .SKIPPED := by
  have hok : scouted.2.reply =
      .ok (.proposed "u" .AWAITING_APPROVAL { items := [], baseCost := 0, finalTotal := 0 }) := by
    decide +kernel
  have hrun : Run (swapStep "u" 0) (fun _ _ env => env.Answers) scouted.1
      (swapped (swapped scouted.1).1).1 [(swapped scouted.1).2, (swapped (swapped scouted.1).1).2] :=
    (Run.nil.snoc twoDishesEnv twoDishesEnv_answers rfl).snoc twoDishesEnv twoDishesEnv_answers rfl
  obtain ⟨row, hrow, hmade, hskipped⟩ := made_of_run twoDishesEnv_answers hok hrun
  exact ⟨row, hrow, hmade, hskipped (by decide)⟩

end Gusto.Workflow
