import Gusto.Contracts
import Gusto.Http
import Mathlib.Algebra.Order.Ring.Rat
import Mathlib.Data.List.Sort
import Mathlib.Tactic.NormNum

/-!
# ai-agent-service: the scout

A graph of four nodes: two ask a language model, which tags the menu and scores it; two are
deterministic, and look at the budget and at the diet.

* `taggerNode`, `budgetFilterNode`, `rankerNode`, `dietGuardNode`: the nodes;
* `invoke`: the graph; `ScoutAgent.analyze`: the endpoint;
* `Caught`: every item that was tagged as forbidden has the score 0;
* `caught_iff`: this holds exactly when each score that the ranker gave such an item is 0, or comes
  with a forbidden tag;
* `not_caught`: a ranker that leaves the tags out.

`lower` is the `lower` of the runtime; numbers are exact.
-/

set_option autoImplicit false

namespace Gusto.Scout

/-! ### Data -/

/-- A ranked item whose score has been checked. -/
structure RankedMenuItem extends Gusto.RankedMenuItem where
  ge : 0 ≤ matchScore
  le : matchScore ≤ 1

/-- What the model answers for an item, before it is checked. -/
structure RawRankedItem where
  itemId : Option String := none
  semanticTags : Option (List String) := none
  matchScore : Option ℚ := none
  deriving DecidableEq, Repr

/-- `RankedMenuItem.model_validate`. -/
def RawRankedItem.validate (raw : RawRankedItem) : Except Err RankedMenuItem :=
  match raw.itemId, raw.semanticTags, raw.matchScore with
  | some itemId, some semanticTags, some matchScore =>
    if h : 0 ≤ matchScore ∧ matchScore ≤ 1 then
      .ok { itemId, semanticTags, matchScore, ge := h.1, le := h.2 }
    else .error (.http 500 "Internal Scout error")
  | _, _, _ => .error (.http 500 "Internal Scout error")

structure TaggedItem where
  itemId : String
  name : String
  price : ℚ
  description : String
  tags : List String
  deriving DecidableEq, Repr

/-- An item of the menu, as the tagger gets it. -/
structure TaggerItem where
  itemId : String
  name : String
  price : ℚ
  description : String
  deriving DecidableEq, Repr

structure ScoutGraphState where
  preferenceProfile : PreferenceProfile
  menuItems : List MenuItem
  weeklyBudget : Option WeeklyBudget
  taggedItems : List TaggedItem := []
  budgetFiltered : List TaggedItem := []
  rankedItems : List RankedMenuItem := []

/-- The language model: what its answers parse to. -/
structure Claude where
  tag : List TaggerItem → Except Err (List TaggedItem)
  rank : PreferenceProfile → List TaggedItem → Except Err (List RawRankedItem)

/-! ### The nodes -/

def maxMenuItemsPerBatch : ℕ := 50

def swiggyCartCap : ℚ := 1000

def taggerNode (llm : Claude) (state : ScoutGraphState) : Except Err ScoutGraphState := do
  let taggedItems ← llm.tag <| state.menuItems.map fun m =>
    { itemId := m.itemId, name := m.name, price := m.price, description := m.description.getD "" }
  return { state with taggedItems }

/-- The tag of the budget. -/
def budgetTag (cap price : ℚ) : String :=
  if price ≤ cap then "within-budget"
  else if price ≤ cap * (13 / 10) ∧ price < swiggyCartCap then "slightly-over-budget"
  else "over-budget"

def budgetFilterNode (state : ScoutGraphState) : ScoutGraphState :=
  match state.weeklyBudget with
  | none => { state with budgetFiltered := state.taggedItems }
  | some budget =>
    let remaining : ℚ := budget.totalAmount - budget.spentSoFar
    let perMeal := if 0 < budget.mealsRemaining then remaining / budget.mealsRemaining else 0
    let cap := min perMeal swiggyCartCap
    let budgetFiltered := state.taggedItems.map fun item =>
      { item with tags := item.tags ++ [budgetTag cap item.price] }
    { state with budgetFiltered }

/-- By descending score; the sort is stable. -/
def sortByScore (items : List RankedMenuItem) : List RankedMenuItem :=
  items.insertionSort fun a b => b.matchScore ≤ a.matchScore

def rankerNode (llm : Claude) (state : ScoutGraphState) : Except Err ScoutGraphState := do
  let parsed ← llm.rank state.preferenceProfile state.budgetFiltered
  let ranked ← parsed.mapM RawRankedItem.validate
  return { state with rankedItems := sortByScore ranked }

def NON_VEG_TAGS : List String :=
  ["non-veg", "meat", "chicken", "mutton", "fish", "seafood", "prawn"]

def DAIRY_TAGS : List String := ["dairy", "paneer", "curd", "cheese", "cream", "ghee", "butter"]

def EGG_TAGS : List String := ["egg"]

variable (lower : String → String)

def shouldZero (diet : Diet) (item : RankedMenuItem) : Bool :=
  let tags := item.semanticTags.map lower
  if diet = .veg ∧ tags.any (· ∈ NON_VEG_TAGS) then true
  else if diet = .vegan ∧ tags.any (· ∈ NON_VEG_TAGS ++ DAIRY_TAGS ++ EGG_TAGS) then true
  else if diet = .eggetarian ∧ tags.any (· ∈ NON_VEG_TAGS.filter (· ∉ EGG_TAGS)) then true
  else false

/-- The item with the score 0. -/
def RankedMenuItem.zeroed (item : RankedMenuItem) : RankedMenuItem :=
  { item with matchScore := 0, ge := le_rfl, le := zero_le_one }

/-- What the guard makes of an item. -/
def guardItem (diet : Diet) (item : RankedMenuItem) : RankedMenuItem :=
  if shouldZero lower diet item then item.zeroed else item

def dietGuardNode (state : ScoutGraphState) : ScoutGraphState :=
  let diet := state.preferenceProfile.diet
  if diet = .nonVeg then state
  else { state with rankedItems := sortByScore (state.rankedItems.map (guardItem lower diet)) }

/-! ### The graph -/

/-- `build_scout_graph().invoke`. -/
def invoke (llm : Claude) (state : ScoutGraphState) : Except Err ScoutGraphState := do
  let state ← taggerNode llm state
  let state ← rankerNode llm (budgetFilterNode state)
  return dietGuardNode lower state

def ScoutAgent.analyze (llm : Claude) (preferenceProfile : PreferenceProfile)
    (menuItems : List MenuItem) (weeklyBudget : Option WeeklyBudget) :
    Except Err (List RankedMenuItem) := do
  if menuItems.length > maxMenuItemsPerBatch then
    throw (.http 400 s!"Max {maxMenuItemsPerBatch} items per batch")
  let result ← invoke lower llm { preferenceProfile, menuItems, weeklyBudget }
  return result.rankedItems

/-! ### What is asked -/

/-- What the model has answered in a run of the graph: the tagged items, and the ranked items, which
have been checked. -/
structure Answered (llm : Claude) (start : ScoutGraphState) (tagged : List TaggedItem)
    (ranked : List RankedMenuItem) : Prop where
  tagger : taggerNode llm start = .ok { start with taggedItems := tagged }
  ranker : ∃ raw, llm.rank start.preferenceProfile
      (budgetFilterNode { start with taggedItems := tagged }).budgetFiltered = .ok raw ∧
    raw.mapM RawRankedItem.validate = .ok ranked

/-- The tags that a diet rules out. -/
def forbiddenTags : Diet → List String
  | .veg => NON_VEG_TAGS
  | .nonVeg => []
  | .eggetarian => NON_VEG_TAGS.filter (· ∉ EGG_TAGS)
  | .vegan => NON_VEG_TAGS ++ DAIRY_TAGS ++ EGG_TAGS

/-- One of the tags is ruled out by the diet, however it is written. -/
def Forbidden (diet : Diet) (tags : List String) : Prop := ∃ t ∈ tags, lower t ∈ forbiddenTags diet

/-- Of an item that was tagged with a forbidden tag, every entry has the score 0. -/
def Caught (diet : Diet) (tagged : List TaggedItem) (items : List RankedMenuItem) : Prop :=
  ∀ item ∈ tagged, Forbidden lower diet item.tags →
    ∀ r ∈ items, r.itemId = item.itemId → r.matchScore = 0

/-- Of an item that was tagged with a forbidden tag, every entry of the ranker has the score 0, or
repeats a forbidden tag. -/
def Repeated (diet : Diet) (tagged : List TaggedItem) (ranked : List RankedMenuItem) : Prop :=
  ∀ item ∈ tagged, Forbidden lower diet item.tags →
    ∀ r ∈ ranked, r.itemId = item.itemId →
      r.matchScore = 0 ∨ Forbidden lower diet r.semanticTags

/-- What the guard makes of what has been ranked. -/
def guarded (diet : Diet) (ranked : List RankedMenuItem) : List RankedMenuItem :=
  sortByScore ((sortByScore ranked).map (guardItem lower diet))

/-! ### The guard -/

section

variable {lower} {diet : Diet} {item : RankedMenuItem} {state : ScoutGraphState}

theorem shouldZero_iff : shouldZero lower diet item ↔ Forbidden lower diet item.semanticTags := by
  unfold shouldZero Forbidden
  cases diet <;> simp [forbiddenTags]

theorem guardItem_itemId : (guardItem lower diet item).itemId = item.itemId := by
  unfold guardItem
  split <;> rfl

theorem guardItem_matchScore : (guardItem lower diet item).matchScore = 0 ↔
    item.matchScore = 0 ∨ Forbidden lower diet item.semanticTags := by
  unfold guardItem
  split
  · rename_i h
    exact iff_of_true rfl (.inr (shouldZero_iff.mp h))
  · rename_i h
    rw [shouldZero_iff] at h
    exact (or_iff_left h).symm

theorem guardItem_semanticTags : (guardItem lower diet item).semanticTags = item.semanticTags := by
  unfold guardItem
  split <;> rfl

theorem mem_sortByScore {items : List RankedMenuItem} : item ∈ sortByScore items ↔ item ∈ items :=
  List.mem_insertionSort _

theorem mem_guarded {ranked : List RankedMenuItem} :
    item ∈ guarded lower diet ranked ↔ ∃ r ∈ ranked, guardItem lower diet r = item := by
  unfold guarded
  rw [mem_sortByScore, List.mem_map]
  simp only [mem_sortByScore]

/-- The guard catches what is repeated. -/
theorem caught_guarded_iff {tagged : List TaggedItem} {ranked : List RankedMenuItem} :
    Caught lower diet tagged (guarded lower diet ranked) ↔ Repeated lower diet tagged ranked := by
  refine forall₃_congr fun item _ _ => ?_
  constructor
  · intro h r hr hid
    refine guardItem_matchScore.mp (h _ (mem_guarded.mpr ⟨r, hr, rfl⟩) ?_)
    rw [guardItem_itemId, hid]
  · intro h r hr hid
    obtain ⟨r', hr', rfl⟩ := mem_guarded.mp hr
    rw [guardItem_itemId] at hid
    exact guardItem_matchScore.mpr (h r' hr' hid)

/-! ### The scout -/

theorem budgetFilterNode_preferenceProfile :
    (budgetFilterNode state).preferenceProfile = state.preferenceProfile := by
  unfold budgetFilterNode
  split <;> rfl

/-- The graph guards what the model has answered. -/
theorem invoke_eq {llm : Claude} {tagged : List TaggedItem} {ranked : List RankedMenuItem}
    (h : Answered llm state tagged ranked) (hdiet : state.preferenceProfile.diet ≠ .nonVeg) :
    (invoke lower llm state).map (·.rankedItems) =
      .ok (guarded lower state.preferenceProfile.diet ranked) := by
  obtain ⟨raw, hrank, hvalid⟩ := h.ranker
  unfold invoke
  rw [h.tagger]
  simp only [bind, Except.bind, pure, Except.pure, rankerNode, budgetFilterNode_preferenceProfile,
    hrank]
  rw [hvalid]
  simp only [Except.map, dietGuardNode, if_neg hdiet, guarded]

variable {llm : Claude} {profile : PreferenceProfile} {menuItems : List MenuItem}
  {weeklyBudget : Option WeeklyBudget} {tagged : List TaggedItem} {ranked : List RankedMenuItem}

/-- **What the scout answers**, if the menu is not too long. -/
theorem analyze_eq (hdiet : profile.diet ≠ .nonVeg)
    (hllm : Answered llm { preferenceProfile := profile, menuItems, weeklyBudget } tagged ranked) :
    ScoutAgent.analyze lower llm profile menuItems weeklyBudget =
      if menuItems.length > maxMenuItemsPerBatch then .error (.http 400 "Max 50 items per batch")
      else .ok (guarded lower profile.diet ranked) := by
  have hinvoke : (invoke lower llm { preferenceProfile := profile, menuItems, weeklyBudget }).map
      (·.rankedItems) = .ok (guarded lower profile.diet ranked) := invoke_eq hllm hdiet
  unfold ScoutAgent.analyze
  split
  · rfl
  · cases hr : invoke lower llm { preferenceProfile := profile, menuItems, weeklyBudget } with
    | error e =>
      rw [hr] at hinvoke
      cases hinvoke
    | ok result =>
      rw [hr] at hinvoke
      exact hinvoke

/-- **When forbidden tags are caught**: exactly when each entry that the ranker gave an item of a
forbidden tag has the score 0, or repeats a forbidden tag. -/
theorem caught_iff {items : List RankedMenuItem} (hdiet : profile.diet ≠ .nonVeg)
    (hllm : Answered llm { preferenceProfile := profile, menuItems, weeklyBudget } tagged ranked)
    (h : ScoutAgent.analyze lower llm profile menuItems weeklyBudget = .ok items) :
    Caught lower profile.diet tagged items ↔ Repeated lower profile.diet tagged ranked := by
  rw [analyze_eq hdiet hllm] at h
  split at h
  · cases h
  · cases h
    exact caught_guarded_iff

end

/-! ### A ranker that leaves the tags out -/

/-- A model that tags the biryani as chicken, and then ranks it with the given tags. -/
def biryani (semanticTags : List String) : Claude where
  tag _ := .ok [{ itemId := "2", name := "Chicken Biryani", price := 349, description := "",
                  tags := ["non-veg", "chicken"] }]
  rank _ _ := .ok [{ itemId := some "2", semanticTags := some semanticTags, matchScore := some (4 / 5) }]

def vegProfile : PreferenceProfile := { diet := .veg, spiceLevel := 3, cuisineFavorites := [] }

/-- The biryani as it is ranked. -/
def rankedBiryani (semanticTags : List String) : RankedMenuItem where
  itemId := "2"
  semanticTags
  matchScore := 4 / 5
  ge := by norm_num
  le := by norm_num

/-- A menu with one dish. -/
def biryaniMenu : List MenuItem :=
  [{ itemId := "2", restaurantId := "rest-1", name := "Chicken Biryani", price := 349 }]

/-- The state that its scout starts in. -/
def vegStart : ScoutGraphState :=
  { preferenceProfile := vegProfile, menuItems := biryaniMenu, weeklyBudget := none }

/-- The biryani as it is tagged. -/
def taggedBiryani : TaggedItem where
  itemId := "2"
  name := "Chicken Biryani"
  price := 349
  description := ""
  tags := ["non-veg", "chicken"]

theorem answered_biryani (semanticTags : List String) :
    Answered (biryani semanticTags) vegStart [taggedBiryani] [rankedBiryani semanticTags] := by
  have hvalid : RawRankedItem.validate
      { itemId := some "2", semanticTags := some semanticTags, matchScore := some (4 / 5) } =
        .ok (rankedBiryani semanticTags) :=
    dif_pos ⟨(rankedBiryani semanticTags).ge, (rankedBiryani semanticTags).le⟩
  refine ⟨rfl, _, rfl, ?_⟩
  rw [List.mapM_cons, hvalid]
  rfl

/-- Lower case, of ASCII. -/
def asciiLower (s : String) : String := String.ofList (s.toList.map Char.toLower)

/-- The ranker calls the biryani vegetarian: it keeps its score of 0.8. -/
theorem not_caught :
    ¬ ∀ (lower : String → String) (llm : Claude) (profile : PreferenceProfile)
      (menuItems : List MenuItem) (weeklyBudget : Option WeeklyBudget) (tagged : List TaggedItem)
      (ranked items : List RankedMenuItem), profile.diet ≠ .nonVeg →
      Answered llm { preferenceProfile := profile, menuItems, weeklyBudget } tagged ranked →
      ScoutAgent.analyze lower llm profile menuItems weeklyBudget = .ok items →
      Caught lower profile.diet tagged items := by
  intro h
  have hcaught := h asciiLower (biryani ["veg"]) vegProfile biryaniMenu none _ _ _ (by decide)
    (answered_biryani ["veg"]) (analyze_eq (by decide) (answered_biryani ["veg"]))
  have hforbidden : Forbidden asciiLower .veg taggedBiryani.tags :=
    ⟨"chicken", by decide, by decide +kernel⟩
  rcases caught_guarded_iff.mp hcaught taggedBiryani (List.mem_singleton_self _) hforbidden
    (rankedBiryani ["veg"]) (List.mem_singleton_self _) rfl with hzero | ⟨t, ht, htag⟩
  · exact absurd hzero (by decide +kernel)
  · rw [List.mem_singleton.mp ht] at htag
    exact absurd htag (by decide +kernel)

/-- The ranker repeats the tags. -/
theorem caught_iff_repeating :
    Caught asciiLower vegProfile.diet [taggedBiryani]
        (guarded asciiLower vegProfile.diet [rankedBiryani ["non-veg", "chicken"]]) ↔
      Repeated asciiLower vegProfile.diet [taggedBiryani] [rankedBiryani ["non-veg", "chicken"]] :=
  caught_iff (by decide) (answered_biryani _) (analyze_eq (by decide) (answered_biryani _))

end Gusto.Scout
