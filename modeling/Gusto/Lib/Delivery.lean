import Mathlib.Data.List.Basic

/-!
# Deliveries that may be repeated

A schedule lists what was handled, in the order in which it was; `h` handles one item.

* `AtMostOnce h s l`: the schedule `l` leaves the state that it would leave without its repeats;
* `AtMostOnce.first`: an item that was not handled before keeps this;
* `AtMostOnce.again`: one that was keeps it exactly when it changes nothing.
-/

set_option autoImplicit false

namespace Delivery

variable {σ α : Type} [DecidableEq α] {h : σ → α → σ} {s : σ} {l : List α} {a : α}

/-- The schedule leaves what it leaves without its repeats, each item in the place of its first. -/
def AtMostOnce (h : σ → α → σ) (s : σ) (l : List α) : Prop := l.foldl h s = l.eraseDups.foldl h s

theorem atMostOnce_nil : AtMostOnce h s [] := rfl

theorem eraseDups_concat (l : List α) (a : α) :
    (l ++ [a]).eraseDups = if a ∈ l then l.eraseDups else l.eraseDups ++ [a] := by
  rw [List.eraseDups_append]
  split <;> simp_all [List.removeAll, List.eraseDups_cons]

theorem AtMostOnce.first (hl : AtMostOnce h s l) (ha : a ∉ l) : AtMostOnce h s (l ++ [a]) := by
  unfold AtMostOnce at hl ⊢
  rw [eraseDups_concat, if_neg ha, List.foldl_append, List.foldl_append, hl]

theorem AtMostOnce.again (hl : AtMostOnce h s l) (ha : a ∈ l) :
    AtMostOnce h s (l ++ [a]) ↔ h (l.foldl h s) a = l.foldl h s := by
  unfold AtMostOnce at hl ⊢
  rw [eraseDups_concat, if_pos ha, ← hl, List.foldl_append]
  rfl

end Delivery
