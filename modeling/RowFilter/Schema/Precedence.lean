/-!
Orders of precedence. What builds on others comes before them, and it takes them in the order in
which it names them. `mergeOrders` makes one order of several: next is the first head of an order
that stands behind the head of none, so the merged order keeps each of the given ones. Where every
head stands behind another there is no such order, and the heads that block one another are told.
-/

namespace RowFilter

def standsBehind (name : String) (order : List String) : Bool :=
  order.tail.contains name

/-- An order without its head, if that is `name`. -/
def dropHead (name : String) : List String → List String
  | [] => []
  | c :: cs => if c = name then cs else c :: cs

def mergeOrdersAux : (fuel : Nat) → List (List String) → Except (List String) (List String)
  | 0, _ => .ok []
  | fuel + 1, orders =>
    let heads := orders.filterMap List.head?
    if heads.isEmpty then .ok []
    else match heads.find? fun c => orders.all fun order => !standsBehind c order with
      | some c => (c :: ·) <$> mergeOrdersAux fuel (orders.map (dropHead c))
      | none => .error heads.eraseDups

/-- The order that keeps each of the given ones, or the heads that keep one another from being
next. -/
def mergeOrders (orders : List (List String)) : Except (List String) (List String) :=
  mergeOrdersAux orders.flatten.length orders

section Orders

variable {name c : String} {order merged : List String} {orders : List (List String)}

theorem mem_dropHead_of_ne (hne : c ≠ name) (hc : c ∈ order) : c ∈ dropHead name order := by
  cases order with
  | nil => exact hc
  | cons d ds =>
    rw [dropHead]
    split
    · next hd => exact (List.mem_cons.1 hc).resolve_left fun heq => hne (heq.trans hd)
    · exact hc

theorem length_flatten_dropHead_le (name : String) (orders : List (List String)) :
    (orders.map (dropHead name)).flatten.length ≤ orders.flatten.length := by
  induction orders with
  | nil => exact Nat.le_refl 0
  | cons order orders ih =>
    have horder : (dropHead name order).length ≤ order.length := by
      cases order with
      | nil => exact Nat.le_refl 0
      | cons d ds => rw [dropHead]; split <;> simp
    simp only [List.map_cons, List.flatten_cons, List.length_append]
    omega

theorem length_flatten_dropHead_lt (h : name ∈ orders.filterMap List.head?) :
    (orders.map (dropHead name)).flatten.length < orders.flatten.length := by
  induction orders with
  | nil => cases h
  | cons order orders ih =>
    have hrest := length_flatten_dropHead_le name orders
    simp only [List.map_cons, List.flatten_cons, List.length_append]
    cases order with
    | nil =>
      have hlt := ih h
      simp only [dropHead, List.length_nil]
      omega
    | cons d ds =>
      by_cases hd : d = name
      · rw [dropHead, if_pos hd, List.length_cons]
        omega
      · have hlt := ih ((List.mem_cons.1 h).resolve_left (Ne.symm hd))
        rw [dropHead, if_neg hd]
        omega

theorem mem_mergeOrdersAux {fuel : Nat} (hfuel : orders.flatten.length ≤ fuel)
    (h : mergeOrdersAux fuel orders = .ok merged) (horder : order ∈ orders) (hc : c ∈ order) :
    c ∈ merged := by
  induction fuel generalizing order orders merged with
  | zero =>
    have hnil : orders.flatten = [] := List.eq_nil_of_length_eq_zero (Nat.le_zero.1 hfuel)
    have hmem : c ∈ orders.flatten := List.mem_flatten_of_mem horder hc
    rw [hnil] at hmem
    cases hmem
  | succ fuel ih =>
    rw [mergeOrdersAux] at h
    split at h
    · next hnone =>
      -- without heads all orders are empty
      cases order with
      | nil => cases hc
      | cons d ds =>
        have hhead : d ∈ orders.filterMap List.head? := List.mem_filterMap.2 ⟨_, horder, rfl⟩
        rw [List.isEmpty_iff.1 hnone] at hhead
        cases hhead
    · split at h
      · next next hnext =>
        have hshorter := length_flatten_dropHead_lt (List.mem_of_find?_eq_some hnext)
        cases hm : mergeOrdersAux fuel (orders.map (dropHead next)) with
        | error blocked =>
          rw [hm] at h
          cases h
        | ok rest =>
          rw [hm] at h
          obtain rfl : next :: rest = merged := Except.ok.inj h
          by_cases hne : c = next
          · exact hne ▸ List.mem_cons_self
          · refine List.mem_cons_of_mem _ (ih (by omega) hm (List.mem_map_of_mem horder) ?_)
            exact mem_dropHead_of_ne hne hc
      · cases h

/-- A merged order has all names of the given ones. -/
theorem mem_mergeOrders (h : mergeOrders orders = .ok merged) (horder : order ∈ orders)
    (hc : c ∈ order) : c ∈ merged :=
  mem_mergeOrdersAux (Nat.le_refl _) h horder hc

end Orders

end RowFilter
