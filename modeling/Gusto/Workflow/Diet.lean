import Gusto.Lib.Run
import Gusto.Workflow.Upstream

/-!
# The verdict of the diet guard

The guard gives an item of a forbidden tag the score 0 and leaves it in the list; the workflow takes
the next item of the list that is on the menu, whatever its score, and the optimiser takes its fillers
from the menu.

* `ZeroScored`: the guard has given an entry of the item the score 0;
* `DietKept`: no such item is put up for approval, as the proposal or in its cart;
* `Clear`: before each scout and SWAP, the zero-scored items on the menu rank below one that is not, and
  no coupon has an offer with a zero-scored filler for the best of these;
* `dietKept_of_clear`: runs all of whose steps are clear keep the verdict; `itemsClear_iff`: a proposal
  is not zero-scored exactly where the items are clear;
* `not_dietKept`: a menu that has nothing else.
-/

set_option autoImplicit false

namespace Gusto.Workflow

open Effects Search WorkflowService

/-! ### The verdict -/

/-- An entry of the item has a tag that the diet rules out, and so the guard gives it the score 0. -/
def ZeroScored (lower : String → String) (diet : Diet) (rankedItems : List RankedMenuItem)
    (itemId : String) : Prop :=
  ∃ r ∈ rankedItems, r.itemId = itemId ∧ Scout.Forbidden lower diet r.semanticTags

/-- The table, and the diet of the scout that was the last to ask for a ranking. -/
structure DietState where
  table : WorkflowStates
  diet : Diet

/-- What is put up for approval has no item of which the guard gave an entry the score 0. -/
structure Clean (zeroed : String → Prop) (shortlist : ShortlistState) (cart : OptimizedCart) :
    Prop where
  proposal : ¬ zeroed shortlist.currentItem.itemId
  items : ∀ item ∈ cart.items, ¬ zeroed item.itemId

def DietKept (lower : String → String) (id : RowId) (s : DietState) : Prop :=
  ∀ row, s.table id = some row → row.phase = .AWAITING_APPROVAL →
    ∀ shortlist cart, row.shortlist = some shortlist → row.optimizedCart = some cart →
      Clean (ZeroScored lower s.diet shortlist.rankedItems) shortlist cart

/-! ### Steps -/

section Steps

variable (p : Platform) (userId : String) (today : ℤ)

/-- The diet that a call asks the agent to look at: a scout asks if the day has not been scouted. -/
def dietOf (env : Env) (s : DietState) : WorkflowCall → Diet
  | .runScoutPhase _ _ =>
    if (s.table (todaysRow userId today)).all (·.phase = .SCOUTING) then
      (parsePreferenceProfile (env (.getPreferenceProfile userId)).profile).diet
    else s.diet
  | _ => s.diet

/-- A call to a handler, with the services that it meets. -/
def dietStep (s : DietState) (l : WorkflowCall × Services) : Option (DietState × WorkflowCall) :=
  some ({ table := (l.1.outcome userId today (l.2.env p) s.table).2,
          diet := dietOf userId today (l.2.env p) s l.1 }, l.1)

end Steps

/-! ### The condition -/

/-- The ranked items, in the order in which they are proposed. -/
def byScore (rankedItems : List RankedMenuItem) : List RankedMenuItem :=
  rankedItems.insertionSort fun a b => b.matchScore ≤ a.matchScore

/-- An item that can be proposed: it has not been rejected, and is on the menu. -/
def Eligible (menuItems : List MenuItem) (rejectedItemIds : List String) (r : RankedMenuItem) : Prop :=
  r.itemId ∉ rejectedItemIds ∧ ∃ item ∈ menuItems, item.itemId = r.itemId

/-- Of the ranked items that are not rejected and are on the menu, the first of the highest score. -/
def Best (menuItems : List MenuItem) (rankedItems : List RankedMenuItem)
    (rejectedItemIds : List String) (proposal : MenuItem) : Prop :=
  ∃ r, Foremost (·.matchScore) (Eligible menuItems rejectedItemIds) rankedItems r ∧
    menuById menuItems r.itemId = some proposal

/-- Each zero-scored item that is on the menu and not rejected ranks below one that is not zero-scored: one
with a higher score, or with the same score and earlier in the list. -/
def ItemsClear (zeroed : String → Prop) (menuItems : List MenuItem)
    (rankedItems : List RankedMenuItem) (rejectedItemIds : List String) : Prop :=
  ∀ l₁ z l₂, rankedItems = l₁ ++ z :: l₂ → Eligible menuItems rejectedItemIds z → zeroed z.itemId →
    ∃ r, Eligible menuItems rejectedItemIds r ∧ ¬ zeroed r.itemId ∧
      (r ∈ rankedItems ∧ z.matchScore < r.matchScore ∨ r ∈ l₁ ∧ z.matchScore = r.matchScore)

/-- No coupon has an offer with a zero-scored filler: of the fillers that reach its threshold at the least
cost, where they make the cart cheaper and stay within the budget, none is zero-scored. -/
def FillersClear (js : Hacker.Runtime) (zeroed : String → Prop) (input : Hacker.OptimizationInput) :
    Prop :=
  ∀ coupon ∈ input.coupons, ∀ fs c, Hacker.Offer js input coupon fs c →
    ∀ f ∈ fs, ¬ zeroed f.itemId

section Condition

variable (p : Platform) (services : Services)

/-- The menu, the ranking, what has been rejected, and the coupons and fillers of the gateway leave no
room for a zero-scored item. -/
structure ProposalClear (id : RowId) (addressId restaurantId : Option String) (diet : Diet)
    (rankedItems : List RankedMenuItem) (rejectedItemIds : List String) : Prop where
  items : ItemsClear (ZeroScored p.lower diet rankedItems)
    ((services.env p).menu id.userId addressId restaurantId) rankedItems rejectedItemIds
  fillers : ∀ m request,
    Best ((services.env p).menu id.userId addressId restaurantId) rankedItems rejectedItemIds m →
    parseOptimizeCartRequest ((services.env p).cartRequest id.userId addressId restaurantId m) =
      some request →
    FillersClear p.js (ZeroScored p.lower diet rankedItems) (services.gateway.input p.number request)

/-- A scout of a day that has not been scouted, and a SWAP of what awaits approval, are clear. -/
def Clear (userId : String) (today : ℤ) (s : DietState) : WorkflowCall × Services → Prop
  | (.runScoutPhase addressId restaurantId, services) =>
    Unscouted (s.table (todaysRow userId today)) →
    Ranked (services.env p) (todaysRow userId today) addressId restaurantId →
    ProposalClear p services (todaysRow userId today) (some addressId) (some restaurantId)
      (parsePreferenceProfile (services.env p (.getPreferenceProfile userId)).profile).diet
      ((services.env p).rankedItems userId addressId restaurantId) []
  | (.handleUserDecision .SWAP, services) =>
    ∀ row shortlist, s.table (todaysRow userId today) = some row → row.phase = .AWAITING_APPROVAL →
    row.shortlist = some shortlist →
    ProposalClear p services (todaysRow userId today) row.addressId row.restaurantId s.diet
      shortlist.rankedItems (row.rejectedItemIds.getD [] ++ [shortlist.currentItem.itemId])
  | _ => True

end Condition

/-! ### The next candidate -/

section Candidate

variable {menuItems : List MenuItem} {rankedItems : List RankedMenuItem}
  {rejectedItemIds : List String} {m : MenuItem} {itemId : String} {zeroed : String → Prop}

theorem itemId_of_menuById (h : menuById menuItems itemId = some m) : m.itemId = itemId := by
  unfold menuById at h
  simpa using List.find?_some h

theorem menuById_ne_none :
    menuById menuItems itemId ≠ none ↔ ∃ item ∈ menuItems, item.itemId = itemId := by
  unfold menuById
  rw [Option.ne_none_iff_isSome, List.find?_isSome]
  simp

/-- **The next candidate** is the first item in the order of the scores that can be proposed. -/
theorem selectNextCandidate_eq_some :
    selectNextCandidate menuItems rankedItems rejectedItemIds = some m ↔
      ∃ r, First (Eligible menuItems rejectedItemIds) (byScore rankedItems) r ∧
        menuById menuItems r.itemId = some m := by
  have heligible : (fun r : RankedMenuItem => (if r.itemId ∈ rejectedItemIds then none
      else menuById menuItems r.itemId) ≠ none) = Eligible menuItems rejectedItemIds := by
    funext r
    unfold Eligible
    by_cases hr : r.itemId ∈ rejectedItemIds
    · simp [hr]
    · rw [if_neg hr, menuById_ne_none]
      simp only [hr, not_false_eq_true, true_and]
  unfold selectNextCandidate byScore
  dsimp only
  rw [findSome?_eq_some_iff_first, heligible]
  refine exists_congr fun r => and_congr_right fun hfirst => ?_
  rw [if_neg hfirst.meets.1]

/-- What is selected is the best. -/
theorem best_of_selected (h : selectNextCandidate menuItems rankedItems rejectedItemIds = some m) :
    Best menuItems rankedItems rejectedItemIds m := by
  obtain ⟨r, hfirst, hmenu⟩ := selectNextCandidate_eq_some.mp h
  exact ⟨r, foremost_of_first hfirst, hmenu⟩

/-- The best is not zero-scored exactly where the items are clear. -/
theorem itemsClear_iff (h : Best menuItems rankedItems rejectedItemIds m) :
    ItemsClear zeroed menuItems rankedItems rejectedItemIds ↔ ¬ zeroed m.itemId := by
  obtain ⟨r, ⟨l₁, l₂, hl, hr, hlt, hle⟩, hmenu⟩ := h
  rw [itemId_of_menuById hmenu]
  constructor
  · intro hclear hzero
    obtain ⟨r', hr', -, ⟨hmem, hhigher⟩ | ⟨hmem, hsame⟩⟩ := hclear l₁ r l₂ hl hr hzero
    · rw [hl] at hmem
      rcases List.mem_append.mp hmem with hmem | hmem
      · exact (hlt r' hmem hr').asymm hhigher
      · rcases List.mem_cons.mp hmem with rfl | hmem
        · exact lt_irrefl _ hhigher
        · exact (hle r' hmem hr').not_gt hhigher
    · exact (hlt r' hmem hr').ne hsame.symm
  · intro hzero m₁ z m₂ hm hz hzeroed
    have hmem : r ∈ rankedItems := hl ▸ (by simp)
    refine ⟨r, hr, hzero, ?_⟩
    rcases List.append_eq_append_iff.mp (hl.symm.trans hm) with ⟨t, rfl, ht⟩ | ⟨t, rfl, ht⟩
    · cases t with
      | nil =>
        obtain ⟨rfl, -⟩ := List.cons.inj ht
        exact absurd hzeroed hzero
      | cons x t =>
        obtain ⟨rfl, rfl⟩ := List.cons.inj ht
        rcases (hle z (by simp) hz).lt_or_eq with hlow | hsame
        · exact .inl ⟨hmem, hlow⟩
        · exact .inr ⟨by simp, hsame⟩
    · cases t with
      | nil =>
        obtain ⟨rfl, -⟩ := List.cons.inj ht
        exact absurd hzeroed hzero
      | cons x t =>
        obtain ⟨rfl, -⟩ := List.cons.inj ht
        exact .inl ⟨hmem, hlt z (by simp) hz⟩

end Candidate

/-! ### What is put up -/

section PutUp

variable {p : Platform} {services : Services} {id : RowId} {addressId restaurantId : Option String}
  {rankedItems : List RankedMenuItem} {rejectedItemIds : List String} {proposal : MenuItem}
  {row : WorkflowRow}

/-- The cart of a proposal: the proposal, and the fillers of an offer. -/
theorem cart_items {zeroed : String → Prop} (h : Served (services.env p) id addressId restaurantId
      rankedItems rejectedItemIds proposal) (hproposal : ¬ zeroed proposal.itemId)
    (hclear : ∀ request, parseOptimizeCartRequest
        ((services.env p).cartRequest id.userId addressId restaurantId proposal) = some request →
      FillersClear p.js zeroed (services.gateway.input p.number request)) :
    ∀ item ∈ ((services.env p).proposedCart id.userId addressId restaurantId proposal).items,
      ¬ zeroed item.itemId := by
  obtain ⟨request, result, hparsed, hresult, hoptimized⟩ := optimized h.optimized
  have hitems : ((services.env p).proposedCart id.userId addressId restaurantId proposal).items =
      result.finalItems := congrArg OptimizedCart.items hoptimized
  obtain ⟨item, hcart, hid⟩ := cartItems_of_parse hparsed
  have hlines : ∀ line ∈ (services.gateway.input p.number request).cartLines,
      ¬ zeroed line.itemId := by
    unfold Hacker.OptimizationInput.cartLines Hacker.Gateway.input
    dsimp only
    rw [hcart]
    simpa [hid] using hproposal
  rw [hitems, (Hacker.optimizedCart_eq hresult).1]
  cases Hacker.won p.js (services.gateway.input p.number request) with
  | baseline hw =>
    rw [hw]
    exact hlines
  | @offer coupon fs hcoupon hoffer =>
    rw [hoffer.items]
    refine List.forall_mem_append.mpr ⟨hlines, ?_⟩
    simpa using hclear request hparsed coupon hcoupon fs _ hoffer

/-- **What is put up is clean** where the proposal was clear. -/
theorem clean_of_clear {diet : Diet} (h : PutUp (services.env p) id addressId restaurantId rankedItems
      rejectedItemIds proposal row)
    (hclear : ProposalClear p services id addressId restaurantId diet rankedItems rejectedItemIds) :
    Clean (ZeroScored p.lower diet rankedItems) { rankedItems, currentItem := proposal }
        ((services.env p).proposedCart id.userId addressId restaurantId proposal) := by
  have hbest := best_of_selected h.selected
  have hproposal := (itemsClear_iff hbest).mp hclear.items
  exact ⟨hproposal, cart_items h.served hproposal fun request => hclear.fillers proposal request hbest⟩

/-- A row that is put up is as clean as what it was put up with. -/
theorem clean_of_putUp {diet : Diet} (h : PutUp (services.env p) id addressId restaurantId rankedItems
      rejectedItemIds proposal row)
    (hclear : ProposalClear p services id addressId restaurantId diet rankedItems rejectedItemIds)
    {shortlist : ShortlistState} {cart : OptimizedCart} (hshortlist : row.shortlist = some shortlist)
    (hcart : row.optimizedCart = some cart) :
    Clean (ZeroScored p.lower diet shortlist.rankedItems) shortlist cart := by
  cases h.shortlist.symm.trans hshortlist
  cases h.cart.symm.trans hcart
  exact clean_of_clear h hclear

end PutUp

/-! ### Runs -/

section Runs

variable {p : Platform} {userId : String} {today : ℤ} {s s' : DietState}

/-- The diet of a scout that has been asked for. -/
theorem dietOf_scout {env : Env} {addressId restaurantId : String}
    (h : Unscouted (s.table (todaysRow userId today))) :
    dietOf userId today env s (.runScoutPhase addressId restaurantId) =
      (parsePreferenceProfile (env (.getPreferenceProfile userId)).profile).diet := by
  refine if_pos ?_
  cases hrow : s.table (todaysRow userId today) with
  | none => rfl
  | some row => simp [h row hrow]

/-- The diet stays where something awaits approval. -/
theorem dietOf_awaiting {env : Env} {row : WorkflowRow} (call : WorkflowCall)
    (hrow : s.table (todaysRow userId today) = some row) (hphase : row.phase = .AWAITING_APPROVAL) :
    dietOf userId today env s call = s.diet := by
  cases call with
  | runScoutPhase addressId restaurantId => exact if_neg (by simp [hrow, hphase])
  | handleUserDecision decision => rfl
  | sendReminderIfPending => rfl
  | finalizeIfPending => rfl

/-- A clear step keeps the verdict. -/
theorem dietKept_step {l : WorkflowCall × Services} {o : WorkflowCall}
    (h : DietKept p.lower (todaysRow userId today) s) (hclear : Clear p userId today s l)
    (hs : dietStep p userId today s l = some (s', o)) :
    DietKept p.lower (todaysRow userId today) s' := by
  obtain ⟨call, services⟩ := l
  cases hs
  intro row hrow hphase shortlist cart hshortlist hcart
  dsimp only at hrow ⊢
  have hawaits : AwaitsAfter (services.env p) (todaysRow userId today)
      (s.table (todaysRow userId today)) call
      ((call.outcome userId today (services.env p) s.table).2 (todaysRow userId today)) :=
    awaitsAfter call
  generalize hafter : (call.outcome userId today (services.env p) s.table).2
    (todaysRow userId today) = after at hawaits
  cases hawaits with
  -- nothing was put up, and the diet is that of the row
  | kept hkept =>
    have hbefore := hkept row (hafter.symm.trans hrow) hphase
    rw [dietOf_awaiting call hbefore hphase]
    exact h row hbefore hphase shortlist cart hshortlist hcart
  | scouted hscouts =>
    cases hafter.symm.trans hrow
    rw [dietOf_scout hscouts.unscouted]
    exact clean_of_putUp hscouts.put (hclear hscouts.unscouted hscouts.ranked) hshortlist hcart
  | swapped hold hswaps =>
    cases hafter.symm.trans hrow
    exact clean_of_putUp hswaps.put (hclear _ _ hold hswaps.awaits hswaps.stored) hshortlist hcart

/-- **The verdict is kept** in every run of a day all of whose scouts and SWAPs are clear. -/
theorem dietKept_of_clear {os : List WorkflowCall} {t : WorkflowStates} {diet : Diet}
    (hfresh : t (todaysRow userId today) = none)
    (hr : Run (dietStep p userId today) (fun _ s l => Clear p userId today s l) ⟨t, diet⟩ s os) :
    DietKept p.lower (todaysRow userId today) s := by
  refine hr.invariant (fun _ s => DietKept p.lower (todaysRow userId today) s) ?_ ?_
  · intro row hrow
    cases hfresh.symm.trans hrow
  · intro os s l s' o h hclear hs
    exact dietKept_step h hclear hs

end Runs

/-! ### A thali and a biryani -/

/-- A model that tags and ranks a thali and a biryani. -/
def thaliAndBiryani : Scout.Claude where
  tag _ := .ok
    [{ itemId := "1", name := "Veg Thali", price := 249, description := "", tags := ["veg"] },
     { itemId := "2", name := "Chicken Biryani", price := 349, description := "",
       tags := ["non-veg", "chicken"] }]
  rank _ _ := .ok
    [{ itemId := some "1", semanticTags := some ["veg"], matchScore := some (9 / 10) },
     { itemId := some "2", semanticTags := some ["non-veg", "chicken"], matchScore := some (4 / 5) }]

/-- Their menu. -/
def twoDishes : MenuResponse where
  categories := some [some
    [{ id := .value "1", name := .value "Veg Thali", price := .value 249 },
     { id := .value "2", name := .value "Chicken Biryani", price := .value 349 }]]

/-- The services of a vegetarian, and a gateway without coupons and fillers. -/
def vegServices : Services where
  llm := thaliAndBiryani
  gateway := { coupons := .ok { success := true }, menu := fun _ => .ok { success := true }, now := 0 }
  others
    | .getPreferenceProfile _ => { profile := some Scout.vegProfile }
    | .get_restaurant_menu _ _ _ => { menu := twoDishes }
    | _ => { subscription := ⟨15000, 15000, 500⟩ }

def asciiPlatform : Platform where
  lower := Scout.asciiLower
  js := Hacker.asciiRuntime
  number _ := none

/-- The two dishes as the agent answers them. -/
def rankedDishes : List RankedMenuItem :=
  [{ itemId := "1", semanticTags := ["veg"], matchScore := 9 / 10 },
   { itemId := "2", semanticTags := ["non-veg", "chicken"], matchScore := 0 }]

/-- The row after the thali has been swapped. -/
def swappedRow : WorkflowRow where
  phase := .AWAITING_APPROVAL
  addressId := some "home"
  restaurantId := some "rest-1"
  shortlist := some
    { rankedItems := rankedDishes
      currentItem :=
        { itemId := "2", restaurantId := "rest-1", name := "Chicken Biryani", price := 349 } }
  optimizedCart := some
    { items := [{ itemId := "2", quantity := 1 }], baseCost := 349, finalTotal := 349 }
  rejectedItemIds := some ["1"]

theorem zeroScored_biryani : ZeroScored Scout.asciiLower .veg rankedDishes "2" :=
  ⟨{ itemId := "2", semanticTags := ["non-veg", "chicken"], matchScore := 0 }, by decide, rfl,
    "chicken", by decide, by decide +kernel⟩

theorem not_zeroScored_thali : ¬ ZeroScored Scout.asciiLower .veg rankedDishes "1" := by
  rintro ⟨r, hr, hid, t, ht, hforbidden⟩
  rcases List.mem_cons.mp hr with rfl | hr
  · rw [List.mem_singleton.mp ht] at hforbidden
    exact absurd hforbidden (by decide +kernel)
  · rw [List.mem_singleton.mp hr] at hid
    exact absurd hid (by decide)

/-- The scout of a vegetarian, who is offered the thali. -/
theorem dietKept_thali :
    DietKept Scout.asciiLower (todaysRow "u" 0)
      ⟨((WorkflowCall.runScoutPhase "home" "rest-1").outcome "u" 0 (vegServices.env asciiPlatform)
        fun _ => none).2, .veg⟩ := by
  refine dietKept_of_clear (p := asciiPlatform) (t := fun _ => none) rfl (Run.nil.snoc
    (WorkflowCall.runScoutPhase "home" "rest-1", vegServices) ?_
    (show dietStep asciiPlatform "u" 0 ⟨fun _ => none, .veg⟩ _ = some _ from rfl))
  have hranked : (vegServices.env asciiPlatform).rankedItems "u" "home" "rest-1" = rankedDishes := by
    decide +kernel
  intro _ _
  rw [hranked]
  refine ⟨fun l₁ z l₂ hsplit _ hzero => ?_, fun m request _ _ coupon hcoupon => ?_⟩
  · -- the thali has the higher score
    have hz : z ∈ rankedDishes := hsplit ▸ (by simp)
    rcases List.mem_cons.mp hz with rfl | hz
    · exact absurd hzero not_zeroScored_thali
    · rw [List.mem_singleton.mp hz]
      refine ⟨{ itemId := "1", semanticTags := ["veg"], matchScore := 9 / 10 },
        ⟨List.not_mem_nil, ?_⟩, not_zeroScored_thali, .inl ⟨List.mem_cons_self .., by norm_num⟩⟩
      exact ⟨{ itemId := "1", restaurantId := "rest-1", name := "Veg Thali", price := 249 },
        by decide +kernel, rfl⟩
  · -- and the gateway has no coupons
    exact absurd hcoupon List.not_mem_nil

/-- A vegetarian who swaps the thali is offered the biryani. -/
theorem not_dietKept :
    ¬ ∀ (p : Platform) (userId : String) (today : ℤ) (t : WorkflowStates) (diet : Diet)
      (s : DietState) (os : List WorkflowCall), t (todaysRow userId today) = none →
      Run (dietStep p userId today) anyStep ⟨t, diet⟩ s os →
      DietKept p.lower (todaysRow userId today) s := by
  intro h
  have hnil : Run (dietStep asciiPlatform "u" 0) anyStep ⟨fun _ => none, .veg⟩ _ [] := .nil
  have hrun := (hnil.snoc (WorkflowCall.runScoutPhase "home" "rest-1", vegServices) trivial
    (show dietStep asciiPlatform "u" 0 _ _ = some _ from rfl)).snoc
    (WorkflowCall.handleUserDecision .SWAP, vegServices) trivial
    (show dietStep asciiPlatform "u" 0 _ _ = some _ from rfl)
  have hclean := h asciiPlatform "u" 0 _ _ _ _ rfl hrun swappedRow (by decide +kernel) rfl _ _ rfl rfl
  exact hclean.proposal zeroScored_biryani

end Gusto.Workflow
