import Gusto.Hacker.Fillers
import Mathlib.Data.String.Basic

/-!
# The optimiser is optimal

* `payable_mono`: with a larger amount, what is paid under a coupon is not less;
* `couponTotals`: the totals of the plans that a coupon admits, which are below B and in the budget;
* `considered`: what a coupon comes to; `Considered.finds`: its total is the least of them;
* `optimize_isLeast`: the optimiser answers the least of these totals over all coupons, and of B.
-/

set_option autoImplicit false

namespace Gusto.Hacker

open HackerAlgorithm Search

/-! ### What is paid -/

/-- What is paid for an amount under a coupon. -/
def payable (coupon : Coupon) (amount : ℤ) : ℤ := amount - discount amount coupon

/-- A percentage is at most the whole. -/
def Proportionate (coupon : Coupon) : Prop :=
  coupon.discountType = .percentage → coupon.discountValue ≤ 100

section Payable

variable {coupon : Coupon}

theorem percentage_sub_le {a b v : ℤ} (hv : v ≤ 100) (hab : a ≤ b) :
    b * v / 100 - a * v / 100 ≤ b - a := by
  have h : (b - a) * v ≤ (b - a) * 100 := Int.mul_le_mul_of_nonneg_left hv (by omega)
  rw [Int.sub_mul] at h
  omega

theorem payable_mono (h : Proportionate coupon) : Monotone (payable coupon) := by
  intro a b hab
  unfold payable discount
  cases ht : coupon.discountType with
  | flat =>
    simp only
    omega
  | percentage =>
    have := percentage_sub_le (h ht) hab
    cases coupon.maxDiscount with
    | none =>
      simp only [floorHundredth_int, Option.getD_none]
      omega
    | some cap =>
      simp only [floorHundredth_int, Option.getD_some]
      omega

theorem payable_nonneg (h : Proportionate coupon) {amount : ℤ} (ha : 0 ≤ amount) :
    0 ≤ payable coupon amount := by
  unfold payable discount
  cases ht : coupon.discountType with
  | flat =>
    simp only
    omega
  | percentage =>
    have := percentage_sub_le (h ht) ha
    simp only [floorHundredth_int]
    omega

end Payable

/-! ### Plans -/

/-- A coupon that may be used: it is not marked as inapplicable, has not expired, takes a payment
mode that there is, and its threshold is within the budget. -/
structure Usable (js : Runtime) (budget now : ℤ) (coupon : Coupon) : Prop where
  applicable : coupon.isApplicable ≠ some false
  unexpired : expired js coupon now = false
  mode : .online ∈ coupon.paymentModes ∨ .cod ∈ coupon.paymentModes
  threshold : coupon.minOrderValue ≤ budget

/-- The fillers that a plan adds to a cart of `base` paise to reach a threshold: none where the cart
reaches it, and otherwise fillers of the pool that close the gap. -/
inductive Plan (base threshold : ℤ) (pool : FillerCandidate → Prop) : List FillerCandidate → Prop
  | bare (h : threshold ≤ base) : Plan base threshold pool []
  | filled {fs : List FillerCandidate} (h : base < threshold)
      (hfs : Closes (threshold - base) pool fs) : Plan base threshold pool fs

/-- The totals of the plans of a coupon, where they are below the base and within the budget. -/
def planTotals (base budget : ℤ) (pool : FillerCandidate → Prop) (coupon : Coupon) : Set ℤ :=
  {total | ∃ fs, Plan base coupon.minOrderValue pool fs ∧ total = payable coupon (base + cost fs) ∧
    total < base ∧ total ≤ budget}

/-- The totals of a coupon, if it may be used. -/
def couponTotals (js : Runtime) (base budget now : ℤ) (pool : FillerCandidate → Prop)
    (coupon : Coupon) : Set ℤ :=
  {total | Usable js budget now coupon ∧ total ∈ planTotals base budget pool coupon}

section Coupon

variable {js : Runtime} {base budget now : ℤ} {pool : FillerCandidate → Prop} {coupon : Coupon}
  {items : List OrderedItem} {candidates : List FillerCandidate}

theorem checkEligibility_eq :
    checkEligibility js coupon base now (budget - base) = .eligible ↔ Usable js budget now coupon := by
  unfold checkEligibility
  constructor
  · intro h
    split_ifs at h with h1 h2 h3 h4
    exact ⟨h1, by simpa using h2, by tauto, by omega⟩
  · rintro ⟨h1, h2, h3, h4⟩
    rw [if_neg h1, if_neg (by simp [h2]), if_neg (by tauto), if_neg (by omega)]

/-- The least total of the plans is that of the least amount. -/
theorem finds_planTotals {amount : ℤ} (hp : Proportionate coupon)
    (h : IsLeast {a | ∃ fs, Plan base coupon.minOrderValue pool fs ∧ a = base + cost fs} amount) :
    Finds id (planTotals base budget pool coupon)
      (if payable coupon amount < base ∧ payable coupon amount ≤ budget then
        some (payable coupon amount) else none) := by
  obtain ⟨⟨fs, hfs, rfl⟩, hleast⟩ := h
  have hle : ∀ fs', Plan base coupon.minOrderValue pool fs' →
      payable coupon (base + cost fs) ≤ payable coupon (base + cost fs') := fun fs' hfs' =>
    payable_mono hp (hleast ⟨fs', hfs', rfl⟩)
  split
  · rename_i hok
    refine ⟨⟨fs, hfs, rfl, hok.1, hok.2⟩, ?_⟩
    rintro _ ⟨fs', hfs', rfl, -, -⟩
    exact hle fs' hfs'
  · rename_i hno
    refine Set.eq_empty_iff_forall_notMem.mpr ?_
    rintro _ ⟨fs', hfs', rfl, h1, h2⟩
    have := hle fs' hfs'
    exact hno ⟨by omega, by omega⟩

theorem judge_total {fillersAdded : List String} {amount : ℤ} :
    (judge coupon items fillersAdded amount base budget).contender.map (·.total) =
      if payable coupon amount < base ∧ payable coupon amount ≤ budget then
        some (payable coupon amount) else none := by
  unfold judge payable
  dsimp only
  by_cases h1 : amount - discount amount coupon ≥ base
  · rw [if_pos h1, if_neg (by omega)]
    rfl
  · by_cases h2 : amount - discount amount coupon > budget
    · rw [if_neg h1, if_pos h2, if_neg (by omega)]
      rfl
    · rw [if_neg h1, if_neg h2, if_pos (by omega)]
      rfl

/-- **What a coupon comes to**: it is turned down because it may not be used or cannot be reached, or
it is judged by what is paid under it, with fillers that reach it at the least cost. -/
inductive Considered (js : Runtime) (base budget now : ℤ) (items : List OrderedItem)
    (pool : FillerCandidate → Prop) (coupon : Coupon) (outcome : CouponOutcome) : Prop
  | unusable (reason : String) (h : ¬ Usable js budget now coupon)
      (hout : outcome = rejected coupon reason none)
  | unreached (reason : String) (h : ∀ fs, ¬ Plan base coupon.minOrderValue pool fs)
      (hout : outcome = rejected coupon reason none)
  | judged (fs : List FillerCandidate) (husable : Usable js budget now coupon)
      (hfs : Plan base coupon.minOrderValue pool fs)
      (hleast : ∀ fs', Plan base coupon.minOrderValue pool fs' → cost fs ≤ cost fs')
      (hout : outcome = judge coupon (items ++ fs.map fun f => { itemId := f.itemId, quantity := 1 })
        (fs.map (·.itemId)) (base + cost fs) base budget)

/-- A cart that reaches the threshold takes no fillers. -/
theorem least_of_bare (hT : coupon.minOrderValue ≤ base) :
    ∀ fs, Plan base coupon.minOrderValue pool fs → cost [] ≤ cost fs := by
  intro fs hfs
  cases hfs with
  | bare _ => exact le_rfl
  | filled hlt _ => omega

theorem considered (hsorted : candidates.Pairwise fun a b => a.price ≤ b.price)
    (hids : candidates.Pairwise fun a b => a.itemId ≠ b.itemId) :
    Considered js base budget now items (· ∈ candidates) coupon
      (considerCoupon js items base budget now candidates coupon) := by
  unfold considerCoupon
  cases he : checkEligibility js coupon base now (budget - base) with
  | ineligible reason =>
    refine .unusable reason (fun h => ?_) rfl
    rw [checkEligibility_eq.mpr h] at he
    cases he
  | eligible =>
    have husable := checkEligibility_eq.mp he
    dsimp only
    unfold optimizeSingleCoupon
    by_cases hT : base < coupon.minOrderValue
    · obtain ⟨found, hfound, hcombo⟩ :=
        finds_bestFillerCombo (coupon.minOrderValue - base) hsorted hids
      rw [if_pos hT, hcombo]
      cases found with
      | none =>
        refine .unreached _ (fun fs hfs => ?_) rfl
        cases hfs with
        | bare hle => omega
        | filled _ hcloses => exact Set.eq_empty_iff_forall_notMem.mp hfound fs hcloses
      | some fs =>
        refine .judged fs husable (.filled hT hfound.1) (fun fs' hfs' => ?_) ?_
        · cases hfs' with
          | bare hle => omega
          | filled _ hcloses => exact hfound.2 fs' hcloses
        · simp only [Option.map_some, toCombo, List.map_map]
          rfl
    · rw [if_neg hT]
      have hle := not_lt.mp hT
      exact .judged [] husable (.bare hle) (least_of_bare hle) (by simp [cost])

/-- The total of what a coupon comes to is the least of the totals that it admits. -/
theorem Considered.finds {outcome : CouponOutcome} (hp : Proportionate coupon)
    (h : Considered js base budget now items pool coupon outcome) :
    Finds id (couponTotals js base budget now pool coupon) (outcome.contender.map (·.total)) := by
  cases h with
  | unusable reason h hout =>
    rw [hout]
    exact Set.eq_empty_iff_forall_notMem.mpr fun total ht => h ht.1
  | unreached reason h hout =>
    rw [hout]
    exact Set.eq_empty_iff_forall_notMem.mpr fun total ⟨_, fs, hfs, _⟩ => h fs hfs
  | judged fs husable hfs hleast hout =>
    have hset : couponTotals js base budget now pool coupon = planTotals base budget pool coupon :=
      Set.ext fun total => ⟨fun h => h.2, fun h => ⟨husable, h⟩⟩
    rw [hout, judge_total, hset]
    refine finds_planTotals hp ⟨⟨fs, hfs, rfl⟩, ?_⟩
    rintro _ ⟨fs', hfs', rfl⟩
    have := hleast fs' hfs'
    omega

end Coupon

/-! ### The winner -/

section Winner

variable {js : Runtime} {a b c baseline : Contender} {others : List Contender}

/-- A contender with fillers comes first among equal totals. -/
def fillerRank (c : Contender) : ℕ := if c.fillersAdded.isEmpty then 1 else 0

theorem compareContenders_le : compareContenders js a b ≤ 0 ↔
    a.total < b.total ∨ a.total = b.total ∧ (fillerRank a < fillerRank b ∨
      fillerRank a = fillerRank b ∧ (a.items.length < b.items.length ∨
        a.items.length = b.items.length ∧
          js.localeCompare (a.couponCode.getD "") (b.couponCode.getD "") ≤ 0)) := by
  unfold compareContenders fillerRank
  by_cases ht : a.total = b.total
  · by_cases hl : a.items.length = b.items.length
    · cases a.fillersAdded.isEmpty <;> cases b.fillersAdded.isEmpty <;> simp [ht, hl]
    · cases a.fillersAdded.isEmpty <;> cases b.fillersAdded.isEmpty <;> simp [ht, hl] <;> omega
  · simp [ht]
    omega

theorem compareContenders_total : compareContenders js a b ≤ 0 ∨ compareContenders js b a ≤ 0 := by
  have := js.localeCompare_total (a.couponCode.getD "") (b.couponCode.getD "")
  rw [compareContenders_le, compareContenders_le]
  omega

theorem compareContenders_trans (hab : compareContenders js a b ≤ 0)
    (hbc : compareContenders js b c ≤ 0) : compareContenders js a c ≤ 0 := by
  have := js.localeCompare_trans (a.couponCode.getD "") (b.couponCode.getD "")
    (c.couponCode.getD "")
  rw [compareContenders_le] at hab hbc ⊢
  omega

theorem selectWinner_spec (js : Runtime) (baseline : Contender) (others : List Contender) :
    selectWinner js baseline others ∈ baseline :: others ∧
    ∀ c ∈ baseline :: others, compareContenders js (selectWinner js baseline others) c ≤ 0 := by
  have htotal : Std.Total fun a b => compareContenders js a b ≤ 0 :=
    ⟨fun _ _ => compareContenders_total⟩
  have htrans : IsTrans Contender fun a b => compareContenders js a b ≤ 0 :=
    ⟨fun _ _ _ => compareContenders_trans⟩
  have hsorted := List.pairwise_insertionSort (fun a b => compareContenders js a b ≤ 0)
    (baseline :: others)
  have hmem : ∀ c, c ∈ (baseline :: others).insertionSort (fun a b => compareContenders js a b ≤ 0) ↔
      c ∈ baseline :: others := fun c => List.mem_insertionSort _
  unfold selectWinner
  cases hs : (baseline :: others).insertionSort fun a b => compareContenders js a b ≤ 0 with
  | nil =>
    rw [hs] at hmem
    exact absurd ((hmem baseline).mpr (List.mem_cons_self ..)) List.not_mem_nil
  | cons w rest =>
    rw [hs] at hmem hsorted
    refine ⟨(hmem w).mp (List.mem_cons_self ..), fun c hc => ?_⟩
    rcases List.mem_cons.mp ((hmem c).mpr hc) with rfl | hc
    · exact compareContenders_total.elim id id
    · exact (List.pairwise_cons.mp hsorted).1 c hc

theorem total_le_of_compare (h : compareContenders js a b ≤ 0) : a.total ≤ b.total := by
  rw [compareContenders_le] at h
  omega

end Winner

/-! ### The optimiser -/

/-- The coupons have percentages of at most 100. -/
def OptimizationInput.Proportionate (input : OptimizationInput) : Prop :=
  ∀ coupon ∈ input.coupons, Gusto.Hacker.Proportionate coupon

/-- The fillers that the budget of an input leaves room for. -/
def OptimizationInput.Pool (input : OptimizationInput) : FillerCandidate → Prop :=
  InPool input.fillerCandidates (input.remainingDailyBudget - baseTotal input.cartItems)

/-- The totals of the plans that the coupons of an input admit. -/
def admittedTotals (js : Runtime) (input : OptimizationInput) : Set ℤ :=
  {total | ∃ coupon ∈ input.coupons, total ∈ couponTotals js (baseTotal input.cartItems)
    input.remainingDailyBudget input.now input.Pool coupon}

theorem planTotals_nonneg {base budget : ℤ} {pool : FillerCandidate → Prop} {coupon : Coupon}
    (hp : Proportionate coupon) (hbase : 0 ≤ base) (hpool : ∀ f, pool f → 0 < f.price) :
    ∀ total ∈ planTotals base budget pool coupon, 0 ≤ total := by
  rintro _ ⟨fs, hfs, rfl, -⟩
  refine payable_nonneg hp ?_
  cases hfs with
  | bare _ => simpa [cost] using hbase
  | filled _ hcloses =>
    cases hcloses with
    | single hf _ =>
      have := hpool _ hf
      simp only [cost, List.map_cons, List.map_nil, List.sum_cons, List.sum_nil]
      omega
    | pair _ hf hg _ _ =>
      have := hpool _ hf
      have := hpool _ hg
      simp only [cost, List.map_cons, List.map_nil, List.sum_cons, List.sum_nil]
      omega

/-- What a coupon of an input comes to. -/
def OptimizationInput.consider (js : Runtime) (input : OptimizationInput)
    (items : List OrderedItem) : Coupon → CouponOutcome :=
  considerCoupon js items (baseTotal input.cartItems) input.remainingDailyBudget input.now
    (prepareFillerCandidates input.fillerCandidates
      (input.remainingDailyBudget - baseTotal input.cartItems))

/-- The contenders that the coupons of an input give. -/
def OptimizationInput.contenders (js : Runtime) (input : OptimizationInput)
    (items : List OrderedItem) : List Contender :=
  (input.coupons.map (input.consider js items)).filterMap (·.contender)

section Optimize

variable {js : Runtime} {input : OptimizationInput} {items : List OrderedItem}

/-- The pool of an input is what the search goes through. -/
theorem OptimizationInput.pool_eq (input : OptimizationInput) :
    input.Pool = (· ∈ prepareFillerCandidates input.fillerCandidates
      (input.remainingDailyBudget - baseTotal input.cartItems)) :=
  funext fun _ => propext mem_prepareFillerCandidates.symm

/-- What a coupon of an input comes to, with fillers of the pool of the input. -/
theorem considered_consider (js : Runtime) (input : OptimizationInput) (items : List OrderedItem)
    (coupon : Coupon) :
    Considered js (baseTotal input.cartItems) input.remainingDailyBudget input.now items input.Pool
      coupon (input.consider js items coupon) := by
  rw [input.pool_eq]
  exact considered sorted_prepareFillerCandidates pairwise_prepareFillerCandidates

theorem total_mem_of_contender (hp : input.Proportionate) :
    ∀ c ∈ input.contenders js items, c.total ∈ admittedTotals js input := by
  intro c hc
  obtain ⟨outcome, hout, hcont⟩ := List.mem_filterMap.mp hc
  obtain ⟨coupon, hcoupon, rfl⟩ := List.mem_map.mp hout
  have := (considered_consider js input items coupon).finds (hp coupon hcoupon)
  rw [hcont] at this
  exact ⟨coupon, hcoupon, this.1⟩

theorem contender_of_total_mem (items : List OrderedItem) (hp : input.Proportionate) :
    ∀ total ∈ admittedTotals js input, ∃ c ∈ input.contenders js items, c.total ≤ total := by
  rintro total ⟨coupon, hcoupon, htotal⟩
  have := (considered_consider js input items coupon).finds (hp coupon hcoupon)
  cases hcont : (input.consider js items coupon).contender with
  | none =>
    rw [hcont] at this
    exact absurd htotal (Set.eq_empty_iff_forall_notMem.mp this total)
  | some c =>
    rw [hcont] at this
    exact ⟨c, List.mem_filterMap.mpr ⟨_, List.mem_map_of_mem hcoupon, hcont⟩, this.2 total htotal⟩

/-- The winner's total is the least of B and of the totals admitted. -/
theorem isLeast_winner (js : Runtime) (items : List OrderedItem) (baseline : Contender)
    (hp : input.Proportionate)
    (hbase : baseline.total = baseTotal input.cartItems) :
    IsLeast (insert (baseTotal input.cartItems) (admittedTotals js input))
      (selectWinner js baseline (input.contenders js items)).total := by
  obtain ⟨hmem, hle⟩ := selectWinner_spec js baseline (input.contenders js items)
  constructor
  · rcases List.mem_cons.mp hmem with he | hc
    · rw [he, hbase]
      exact Set.mem_insert ..
    · exact Set.mem_insert_of_mem _ (total_mem_of_contender hp _ hc)
  · rintro total (rfl | htotal)
    · rw [← hbase]
      exact total_le_of_compare (hle baseline (List.mem_cons_self ..))
    · obtain ⟨c, hc, hct⟩ := contender_of_total_mem items hp total htotal
      exact (total_le_of_compare (hle c (List.mem_cons_of_mem _ hc))).trans hct

theorem admittedTotals_nonneg (hB : 0 ≤ baseTotal input.cartItems) (hp : input.Proportionate) :
    ∀ total ∈ admittedTotals js input, 0 ≤ total := by
  rintro total ⟨coupon, hcoupon, -, hplan⟩
  exact planTotals_nonneg (hp coupon hcoupon) hB (fun f hf => hf.2.2.1) total hplan

end Optimize

/-- **The optimiser is optimal.** For a cart that costs something, and percentages of at most 100,
the optimiser answers, and its total is the least of the price of the cart and of the totals of all
plans that the coupons admit. -/
theorem optimize_isLeast (js : Runtime) (input : OptimizationInput)
    (hB : 0 < baseTotal input.cartItems) (hp : input.Proportionate) :
    ∃ result, optimize js input = .ok result ∧
      IsLeast (insert (baseTotal input.cartItems) (admittedTotals js input)) result.finalTotal := by
  have hcart : ¬ (input.cartItems.isEmpty || baseTotal input.cartItems == 0) := by
    rw [Bool.or_eq_true, beq_iff_eq]
    rintro (h | h)
    · rw [List.isEmpty_iff.mp h] at hB
      exact absurd hB (by decide)
    · omega
  have hwinner (items : List OrderedItem) := isLeast_winner js items
    { couponCode := none, items, total := baseTotal input.cartItems, fillersAdded := [] } hp rfl
  unfold optimize
  dsimp only
  rw [if_neg hcart]
  unfold buildResult
  refine ⟨_, if_neg ?_, hwinner _⟩
  rw [not_lt]
  rcases (hwinner (input.cartItems.map fun item => { itemId := item.itemId, quantity := item.quantity })).1
    with h | h
  · exact hB.le.trans_eq h.symm
  · exact admittedTotals_nonneg hB.le hp _ h

/-! ### A free side -/

/-- Strings by their code points, as for codes of ASCII capitals and digits, and no dates. -/
def asciiRuntime : Runtime where
  parseDate _ := none
  localeCompare a b := if a < b then -1 else if b < a then 1 else 0
  localeCompare_total a b := by
    rcases lt_trichotomy a b with h | h | h
    · exact .inl (by simp [h])
    · exact .inl (by simp [h])
    · exact .inr (by simp [h])
  localeCompare_trans a b c := by
    intro hab hbc
    have hle {x y : String} (h : (if x < y then (-1 : ℤ) else if y < x then 1 else 0) ≤ 0) : x ≤ y := by
      by_contra hlt
      rw [not_le] at hlt
      simp [hlt, hlt.asymm] at h
    have := (hle hab).trans (hle hbc)
    rcases this.lt_or_eq with h | h <;> simp [h]

/-- 200 paise, a coupon of 100 paise from 250 paise on, and a side of 60 paise. -/
def freeSide : OptimizationInput where
  cartItems := [{ itemId := "main", price := 200, quantity := 1 }]
  coupons :=
    [{ code := "FLAT100", discountType := .flat, discountValue := 100, maxDiscount := none,
       minOrderValue := 250, paymentModes := [.cod], isApplicable := none, expiresAt := none }]
  fillerCandidates := [{ itemId := "side", price := 60, category := some "side", inStock := true }]
  remainingDailyBudget := 300
  now := 0

theorem proportionate_freeSide : freeSide.Proportionate := by
  unfold OptimizationInput.Proportionate Proportionate
  decide

example : (optimize asciiRuntime freeSide).map (·.finalTotal) = .ok 160 := by decide

end Gusto.Hacker
