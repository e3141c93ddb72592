import Gusto.Order.Service
import Gusto.Scout.Graph
import Mathlib.Algebra.Order.BigOperators.Group.List

/-!
# The deterministic nodes of the scout

What `budgetFilterNode` and `dietGuardNode` make of their lists, item by item.

* `Guarded`: each item once, by descending score, with the score 0 where one of its tags is not for the
  diet; `guarded_iff`: the guard does this unless a vegetarian is ranked an egg dish;
* `BudgetTagged`: each item in its place, with one tag of the budget; `budgetTagged_iff`: it is the right
  one unless an item that can be paid for costs more than `swiggyCartCap`.
-/

set_option autoImplicit false

namespace Gusto.Scout

/-! ### The diet -/

section Diet

variable (lower : String → String)

/-- The tags of what a diet leaves out; eggs are what an eggetarian eats besides. -/
def leftOut : Diet → List String
  | .veg => NON_VEG_TAGS ++ EGG_TAGS
  | .nonVeg => []
  | .eggetarian => NON_VEG_TAGS
  | .vegan => NON_VEG_TAGS ++ DAIRY_TAGS ++ EGG_TAGS

/-- One of the tags is one of `known`, however it is written. -/
def HasTag (known tags : List String) : Prop := ∃ t ∈ tags, lower t ∈ known

instance (known tags : List String) : Decidable (HasTag lower known tags) :=
  inferInstanceAs (Decidable (∃ t ∈ tags, _))

/-- The item as it should be answered. -/
def asGuarded (diet : Diet) (item : RankedMenuItem) : RankedMenuItem :=
  if HasTag lower (leftOut diet) item.semanticTags then item.zeroed else item

/-- Each of `items` once, as it should be answered, by descending score. -/
structure Guarded (diet : Diet) (items out : List RankedMenuItem) : Prop where
  perm : out.Perm (items.map (asGuarded lower diet))
  sorted : out.Pairwise fun a b => b.matchScore ≤ a.matchScore

variable {lower} {diet : Diet} {item : RankedMenuItem} {items : List RankedMenuItem}

theorem sorted_sortByScore : (sortByScore items).Pairwise fun a b => b.matchScore ≤ a.matchScore := by
  have : Std.Total fun a b : RankedMenuItem => b.matchScore ≤ a.matchScore := ⟨fun a b => le_total _ _⟩
  have : IsTrans RankedMenuItem fun a b => b.matchScore ≤ a.matchScore :=
    ⟨fun _ _ _ hab hbc => hbc.trans hab⟩
  exact List.pairwise_insertionSort _ _

variable (lower) in
/-- The guard keeps every item and puts the scores in order. -/
theorem dietGuardNode_spec {state : ScoutGraphState}
    (hsorted : state.rankedItems.Pairwise fun a b => b.matchScore ≤ a.matchScore) :
    (dietGuardNode lower state).rankedItems.Perm
        (state.rankedItems.map (guardItem lower state.preferenceProfile.diet)) ∧
      (dietGuardNode lower state).rankedItems.Pairwise fun a b => b.matchScore ≤ a.matchScore := by
  unfold dietGuardNode
  dsimp only
  split
  · rename_i hdiet
    have hid : ∀ item, guardItem lower .nonVeg item = item := fun item => by simp [guardItem, shouldZero]
    rw [hdiet, List.map_congr_left fun item _ => hid item, List.map_id']
    exact ⟨List.Perm.refl _, hsorted⟩
  · exact ⟨List.perm_insertionSort _ _, sorted_sortByScore⟩

theorem matchScore_zeroed_le : item.zeroed.matchScore ≤ item.matchScore := item.ge

/-- An item is its id, its tags and its score. -/
theorem ext_item {item' : RankedMenuItem} (hid : item.itemId = item'.itemId)
    (htags : item.semanticTags = item'.semanticTags) (hscore : item.matchScore = item'.matchScore) :
    item = item' := by
  obtain ⟨⟨id, tags, score⟩, hge, hle⟩ := item
  obtain ⟨⟨id', tags', score'⟩, hge', hle'⟩ := item'
  cases hid
  cases htags
  cases hscore
  rfl

theorem eq_zeroed_iff : item = item.zeroed ↔ item.matchScore = 0 := by
  constructor
  · intro h
    rw [h]
    rfl
  · intro h
    have hscore : item.matchScore = item.zeroed.matchScore := h
    exact ext_item rfl rfl hscore

theorem asGuarded_of_hasTag (h : HasTag lower (leftOut diet) item.semanticTags) :
    asGuarded lower diet item = item.zeroed := if_pos h

theorem asGuarded_itemId : (asGuarded lower diet item).itemId = item.itemId := by
  unfold asGuarded
  split <;> rfl

theorem asGuarded_semanticTags : (asGuarded lower diet item).semanticTags = item.semanticTags := by
  unfold asGuarded
  split <;> rfl

/-- What the guard zeroes should be zeroed. -/
theorem hasTag_of_forbidden {tags : List String} (h : Forbidden lower diet tags) :
    HasTag lower (leftOut diet) tags := by
  obtain ⟨t, ht, htag⟩ := h
  refine ⟨t, ht, ?_⟩
  cases diet with
  | veg => exact List.mem_append_left _ htag
  | nonVeg => cases htag
  | eggetarian => exact (List.mem_filter.mp htag).1
  | vegan => exact htag

/-- Of the other tags only the egg of a vegetarian is overlooked. -/
theorem forbidden_or_egg {tags : List String} (h : HasTag lower (leftOut diet) tags) :
    Forbidden lower diet tags ∨ diet = .veg ∧ HasTag lower EGG_TAGS tags := by
  obtain ⟨t, ht, htag⟩ := h
  cases diet with
  | veg =>
    rcases List.mem_append.mp htag with hmeat | hegg
    · exact .inl ⟨t, ht, hmeat⟩
    · exact .inr ⟨rfl, t, ht, hegg⟩
  | nonVeg => cases htag
  | eggetarian =>
    have hegg : ∀ t ∈ NON_VEG_TAGS, t ∉ EGG_TAGS := by decide
    exact .inl ⟨t, ht, List.mem_filter.mpr ⟨htag, by simpa using hegg _ htag⟩⟩
  | vegan => exact .inl ⟨t, ht, htag⟩

theorem matchScore_asGuarded_le :
    (asGuarded lower diet item).matchScore ≤ (guardItem lower diet item).matchScore := by
  unfold asGuarded guardItem
  split
  · split
    · exact le_rfl
    · exact matchScore_zeroed_le
  · rename_i hnot
    split
    · rename_i hzero
      exact absurd (hasTag_of_forbidden (shouldZero_iff.mp hzero)) hnot
    · exact le_rfl

/-- **One item** is answered as it should be, unless it is an egg dish that a vegetarian is offered. -/
theorem guardItem_eq_iff : guardItem lower diet item = asGuarded lower diet item ↔
    (diet = .veg → HasTag lower EGG_TAGS item.semanticTags →
      item.matchScore = 0 ∨ HasTag lower NON_VEG_TAGS item.semanticTags) := by
  unfold guardItem asGuarded
  by_cases hzero : shouldZero lower diet item
  · have hforbidden := shouldZero_iff.mp hzero
    rw [if_pos hzero, if_pos (hasTag_of_forbidden hforbidden)]
    refine iff_of_true rfl fun hveg _ => .inr ?_
    rw [hveg] at hforbidden
    exact hforbidden
  · have hclear : ¬ Forbidden lower diet item.semanticTags := fun h => hzero (shouldZero_iff.mpr h)
    rw [if_neg hzero]
    by_cases htag : HasTag lower (leftOut diet) item.semanticTags
    · obtain ⟨rfl, hegg⟩ := (forbidden_or_egg htag).resolve_left hclear
      rw [if_pos htag, eq_zeroed_iff]
      constructor
      · exact fun h _ _ => .inl h
      · intro h
        exact (h rfl hegg).resolve_right hclear
    · rw [if_neg htag]
      refine iff_of_true rfl fun hveg hegg => absurd ?_ htag
      obtain ⟨t, ht, htag⟩ := hegg
      exact ⟨t, ht, by rw [hveg]; exact List.mem_append_right _ htag⟩

/-- Where no score is to be higher than it is, the two lists have the same items only if each item is as
it should be. -/
theorem perm_guarded_iff : (items.map (guardItem lower diet)).Perm (items.map (asGuarded lower diet)) ↔
    ∀ item ∈ items, guardItem lower diet item = asGuarded lower diet item := by
  constructor
  · intro hperm
    have hsum : (items.map fun item => (asGuarded lower diet item).matchScore).sum =
        (items.map fun item => (guardItem lower diet item).matchScore).sum := by
      have := (hperm.map fun item => item.matchScore).sum_eq
      rw [List.map_map, List.map_map] at this
      exact this.symm
    intro item hitem
    by_contra hne
    have hscore : (asGuarded lower diet item).matchScore ≠ (guardItem lower diet item).matchScore := by
      intro hscore
      refine hne (ext_item ?_ ?_ hscore.symm)
      · rw [guardItem_itemId, asGuarded_itemId]
      · rw [guardItem_semanticTags, asGuarded_semanticTags]
    have hlt := List.sum_lt_sum (l := items) (fun item => (asGuarded lower diet item).matchScore)
      (fun item => (guardItem lower diet item).matchScore) (fun item _ => matchScore_asGuarded_le)
      ⟨item, hitem, lt_of_le_of_ne matchScore_asGuarded_le hscore⟩
    exact absurd hsum hlt.ne
  · intro h
    rw [List.map_congr_left h]

/-- **What the guard does**: it answers a ranked list as it should be, whatever the diet, unless a
vegetarian is offered an egg dish that has a score and no tag of meat. -/
theorem guarded_iff (lower : String → String) (state : ScoutGraphState)
    (hsorted : state.rankedItems.Pairwise fun a b => b.matchScore ≤ a.matchScore) :
    Guarded lower state.preferenceProfile.diet state.rankedItems
        (dietGuardNode lower state).rankedItems ↔
      (state.preferenceProfile.diet = .veg → ∀ item ∈ state.rankedItems,
        HasTag lower EGG_TAGS item.semanticTags →
          item.matchScore = 0 ∨ HasTag lower NON_VEG_TAGS item.semanticTags) := by
  obtain ⟨hperm, hout⟩ := dietGuardNode_spec lower hsorted
  have hguarded : Guarded lower state.preferenceProfile.diet state.rankedItems
      (dietGuardNode lower state).rankedItems ↔ ∀ item ∈ state.rankedItems,
        guardItem lower state.preferenceProfile.diet item =
          asGuarded lower state.preferenceProfile.diet item := by
    rw [← perm_guarded_iff]
    exact ⟨fun h => hperm.symm.trans h.perm, fun h => ⟨hperm.trans h, hout⟩⟩
  rw [hguarded]
  constructor
  · intro h hveg item hitem
    exact guardItem_eq_iff.mp (h item hitem) hveg
  · intro h item hitem
    exact guardItem_eq_iff.mpr fun hveg => h hveg item hitem

theorem omelette_score : (0 : ℚ) ≤ 4 / 5 ∧ (4 / 5 : ℚ) ≤ 1 := by norm_num

/-- An omelette, ranked for a diet. -/
def omelette (diet : Diet) : ScoutGraphState where
  preferenceProfile := { diet, spiceLevel := 3, cuisineFavorites := [] }
  menuItems := []
  weeklyBudget := none
  rankedItems :=
    [{ itemId := "1", semanticTags := ["Egg"], matchScore := 4 / 5, ge := omelette_score.1,
       le := omelette_score.2 }]

theorem guarded_iff_omelette : Guarded asciiLower .eggetarian (omelette .eggetarian).rankedItems
    (dietGuardNode asciiLower (omelette .eggetarian)).rankedItems :=
  (guarded_iff asciiLower (omelette .eggetarian) (List.pairwise_singleton _ _)).mpr nofun

/-- The omelette keeps its score for a vegetarian. -/
theorem not_guarded : ¬ ∀ (lower : String → String) (state : ScoutGraphState),
    state.rankedItems.Pairwise (fun a b => b.matchScore ≤ a.matchScore) →
    Guarded lower state.preferenceProfile.diet state.rankedItems
      (dietGuardNode lower state).rankedItems := by
  intro h
  have hguarded := h asciiLower (omelette .veg) (List.pairwise_singleton _ _)
  have hegg : HasTag asciiLower (leftOut .veg) ["Egg"] := ⟨"Egg", by decide, by decide +kernel⟩
  have hzero : ∀ item ∈ (dietGuardNode asciiLower (omelette .veg)).rankedItems, item.matchScore = 0 := by
    intro item hitem
    obtain ⟨item', hitem', rfl⟩ := List.mem_map.mp (hguarded.perm.mem_iff.mp hitem)
    rw [List.mem_singleton.mp hitem', asGuarded_of_hasTag hegg]
    rfl
  have hscore : (dietGuardNode asciiLower (omelette .veg)).rankedItems.map (·.matchScore) = [4 / 5] := by
    decide +kernel
  obtain ⟨item, hitem, heq⟩ : ∃ item ∈ (dietGuardNode asciiLower (omelette .veg)).rankedItems,
      item.matchScore = 4 / 5 := List.mem_map.mp (hscore ▸ List.mem_singleton_self _)
  exact absurd ((hzero item hitem).symm.trans heq) (by norm_num)

end Diet

/-! ### The budget -/

section Budget

/-- What is left of a budget for each meal; amounts are paise. -/
def perMeal (budget : WeeklyBudget) : ℚ := (budget.totalAmount - budget.spentSoFar : ℤ) / budget.mealsRemaining

/-- What can be paid for a meal, and ordered at all. -/
def Payable (budget : WeeklyBudget) (price : ℚ) : Prop :=
  price ≤ perMeal budget ∧ price ≤ Order.MAX_ORDER_TOTAL_PAISE

instance (budget : WeeklyBudget) (price : ℚ) : Decidable (Payable budget price) :=
  inferInstanceAs (Decidable (_ ∧ _))

def budgetTags : List String := ["within-budget", "slightly-over-budget", "over-budget"]

/-- The item with one tag of the budget besides its own, which is the first just if it can be paid for. -/
def Tagged (budget : WeeklyBudget) (item item' : TaggedItem) : Prop :=
  ∃ tag ∈ budgetTags, item' = { item with tags := item.tags ++ [tag] } ∧
    (tag = "within-budget" ↔ Payable budget item.price)

/-- Each item in its place, so tagged. -/
def BudgetTagged (budget : WeeklyBudget) (items out : List TaggedItem) : Prop :=
  List.Forall₂ (Tagged budget) items out

variable {budget : WeeklyBudget} {cap price : ℚ}

theorem budgetTag_mem : budgetTag cap price ∈ budgetTags := by
  unfold budgetTag
  split
  · decide
  · split <;> decide

theorem budgetTag_eq_within : budgetTag cap price = "within-budget" ↔ price ≤ cap := by
  unfold budgetTag
  split
  · rename_i hle
    exact iff_of_true rfl hle
  · rename_i hnot
    refine iff_of_false ?_ hnot
    split <;> decide

/-- What the node makes of the items. -/
theorem budgetFilterNode_eq {state : ScoutGraphState} (h : state.weeklyBudget = some budget)
    (hmeals : 0 < budget.mealsRemaining) :
    (budgetFilterNode state).budgetFiltered = state.taggedItems.map fun item =>
      { item with tags := item.tags ++ [budgetTag (min (perMeal budget) swiggyCartCap) item.price] } := by
  unfold budgetFilterNode perMeal
  rw [h]
  simp only [if_pos hmeals, Int.cast_sub]

/-- **One item** is tagged as it should be, unless it can be paid for and costs more than the cap. -/
theorem tagged_iff {item : TaggedItem} :
    Tagged budget item
        { item with tags := item.tags ++ [budgetTag (min (perMeal budget) swiggyCartCap) item.price] } ↔
      (Payable budget item.price → item.price ≤ swiggyCartCap) := by
  have hcap : swiggyCartCap ≤ Order.MAX_ORDER_TOTAL_PAISE := by
    unfold swiggyCartCap Order.MAX_ORDER_TOTAL_PAISE
    norm_num
  have hright : Tagged budget item
        { item with tags := item.tags ++ [budgetTag (min (perMeal budget) swiggyCartCap) item.price] } ↔
      (budgetTag (min (perMeal budget) swiggyCartCap) item.price = "within-budget" ↔
        Payable budget item.price) := by
    constructor
    · rintro ⟨tag, -, heq, hpay⟩
      have htags := congrArg TaggedItem.tags heq
      have htag := List.append_cancel_left htags
      rw [List.singleton_inj.mp htag]
      exact hpay
    · intro hpay
      exact ⟨_, budgetTag_mem, rfl, hpay⟩
  rw [hright, budgetTag_eq_within, le_min_iff]
  unfold Payable
  constructor
  · intro h hpay
    exact (h.mpr hpay).2
  · intro h
    constructor
    · rintro ⟨hmeal, hle⟩
      exact ⟨hmeal, hle.trans hcap⟩
    · intro hpay
      exact ⟨hpay.1, h hpay⟩

/-- **What the node does**: with a budget for at least one meal it tags the items as they should be,
unless one of them can be paid for and costs more than `swiggyCartCap` paise. -/
theorem budgetTagged_iff (state : ScoutGraphState) (budget : WeeklyBudget)
    (h : state.weeklyBudget = some budget) (hmeals : 0 < budget.mealsRemaining) :
    BudgetTagged budget state.taggedItems (budgetFilterNode state).budgetFiltered ↔
      ∀ item ∈ state.taggedItems, Payable budget item.price → item.price ≤ swiggyCartCap := by
  rw [budgetFilterNode_eq h hmeals, BudgetTagged, List.forall₂_map_right_iff, List.forall₂_same]
  exact forall₂_congr fun item _ => tagged_iff

/-- A week of seven meals for ₹500 each, and a dish. -/
def dish (price : ℚ) : ScoutGraphState where
  preferenceProfile := { diet := .nonVeg, spiceLevel := 3, cuisineFavorites := [] }
  menuItems := []
  weeklyBudget :=
    some { totalAmount := 350000, spentSoFar := 0, mealsRemaining := 7, dailyAvgLimit := 50000 }
  taggedItems := [{ itemId := "1", name := "Veg Thali", price, description := "", tags := ["veg"] }]

/-- A dish of ₹9. -/
theorem budgetTagged_iff_dish :
    BudgetTagged { totalAmount := 350000, spentSoFar := 0, mealsRemaining := 7, dailyAvgLimit := 50000 }
      (dish 900).taggedItems (budgetFilterNode (dish 900)).budgetFiltered := by
  refine (budgetTagged_iff (dish 900) _ rfl (by decide)).mpr fun item hitem _ => ?_
  rw [List.mem_singleton.mp hitem]
  decide +kernel

/-- A dish of ₹150 is tagged as over the budget. -/
theorem not_budgetTagged : ¬ ∀ (state : ScoutGraphState) (budget : WeeklyBudget),
    state.weeklyBudget = some budget → 0 < budget.mealsRemaining →
    BudgetTagged budget state.taggedItems (budgetFilterNode state).budgetFiltered := by
  intro h
  have htagged := h (dish 15000) _ rfl (by decide)
  rw [budgetFilterNode_eq rfl (by decide), BudgetTagged, List.forall₂_map_right_iff,
    List.forall₂_same] at htagged
  have hpayable : Payable { totalAmount := 350000, spentSoFar := 0, mealsRemaining := 7, dailyAvgLimit := 50000 }
      15000 := by decide +kernel
  have hle := tagged_iff.mp (htagged _ (List.mem_singleton_self _)) hpayable
  exact absurd hle (by decide +kernel)

end Budget

end Gusto.Scout
