/-
  The allocation of request budgets (`internal/ratelimit/allocator.go`).

  The requests are grouped by exchange, sorted stably by the priority of their
  class, and granted what they demand until the capacity of the exchange is used
  up.

  * `grant_eq`: the loop over the requests of an exchange serves them from its
    capacity;
  * `BudgetAllocator.allocate_exchange`: what an exchange is granted, in which
    order and up to which request;
  * `BudgetAllocator.blank_exchange`: requests for the blank exchange are dropped.
-/
import Aggregator.Go.Strings
import Aggregator.Lib.Serve
import Mathlib.Algebra.Order.Group.Int
import Mathlib.Algebra.Ring.Int.Defs
import Mathlib.Data.List.Dedup

namespace Aggregator.Ratelimit

open Aggregator.Go

/-- `WorkClass`: the constants, and any other text. -/
inductive WorkClass where
  | watchlistRealtime
  | top100OneMinute
  | allCoreFiveMinute
  | historicalBackfill
  | debugRetry
  | other (name : String)
deriving DecidableEq, Repr

structure AllocationRequest where
  exchange : String
  workClass : WorkClass
  demand : ℤ
deriving DecidableEq, Repr

structure Allocation where
  exchange : String
  workClass : WorkClass
  granted : ℤ
deriving DecidableEq, Repr

structure BudgetAllocator where
  capacityByExchange : String → Option ℤ

def workClassPriority : WorkClass → ℤ
  | .watchlistRealtime => 1
  | .top100OneMinute => 2
  | .allCoreFiveMinute => 3
  | .historicalBackfill => 4
  | .debugRetry => 5
  | .other _ => 99

/-- The requests that are kept, each with the normalised name of its exchange. -/
def accepted (requests : List AllocationRequest) : List AllocationRequest :=
  requests.filterMap fun req =>
    if req.demand ≤ 0 then none
    else
      let exchange := toLower (trimSpace req.exchange)
      if exchange = "" then none else some { req with exchange := exchange }

/-- The map from exchanges to requests: its values, in the order they were
    appended, and its sorted keys. -/
def grouped (requests : List AllocationRequest) (exchange : String) : List AllocationRequest :=
  (accepted requests).filter fun req => req.exchange = exchange

def exchanges (requests : List AllocationRequest) : List String :=
  ((accepted requests).map AllocationRequest.exchange).dedup.insertionSort (· ≤ ·)

/-- The comparison requests are sorted by. -/
def ByPriority (r s : AllocationRequest) : Prop :=
  workClassPriority r.workClass ≤ workClassPriority s.workClass

instance : DecidableRel ByPriority := fun _ _ => inferInstanceAs (Decidable (_ ≤ _))

/-- The loop over the requests of an exchange. -/
def grant (exchange : String) : ℤ → List AllocationRequest → List Allocation
  | _, [] => []
  | capacity, req :: requests =>
    if capacity ≤ 0 then []
    else
      let granted := if req.demand > capacity then capacity else req.demand
      ⟨exchange, req.workClass, granted⟩ :: grant exchange (capacity - granted) requests

namespace BudgetAllocator

/-- What `Allocate` appends for an exchange. -/
def allocateTo (a : BudgetAllocator) (requests : List AllocationRequest) (exchange : String) :
    List Allocation :=
  let capacity := (a.capacityByExchange exchange).getD 0
  if capacity ≤ 0 then []
  else grant exchange capacity ((grouped requests exchange).insertionSort ByPriority)

def allocate (a : BudgetAllocator) (requests : List AllocationRequest) : List Allocation :=
  (exchanges requests).flatMap (a.allocateTo requests)

end BudgetAllocator

/-! ## The order of the requests -/

/-- A request for an exchange. -/
def demands (exchange : String) (req : AllocationRequest) : Bool :=
  0 < req.demand && toLower (trimSpace req.exchange) = exchange

/-- The requests for an exchange, by the priority of their class and then by their
    position. -/
def servingOrder (requests : List AllocationRequest) (exchange : String) :
    List AllocationRequest :=
  ((requests.zipIdx.filter fun p => demands exchange p.1).insertionSort
    (byPosition ByPriority)).map Prod.fst

section
variable {requests : List AllocationRequest} {exchange : String}

theorem grouped_eq (h : exchange ≠ "") :
    grouped requests exchange =
      (requests.filter (demands exchange)).map fun req => { req with exchange := exchange } := by
  induction requests with
  | nil => rfl
  | cons req requests ih =>
    rw [grouped, accepted] at ih ⊢
    rw [List.filterMap_cons, List.filter_cons]
    by_cases hd : req.demand ≤ 0
    · simp only [demands, hd, not_lt.2 hd, ↓reduceIte, decide_false, Bool.false_and,
        Bool.false_eq_true]
      exact ih
    · by_cases he : toLower (trimSpace req.exchange) = exchange
      · simp only [demands, hd, not_le.1 hd, he, h, ↓reduceIte, decide_true, Bool.and_self,
          List.filter_cons_of_pos, List.map_cons]
        exact congrArg _ ih
      · simp only [demands, hd, he, ↓reduceIte, decide_false, Bool.and_false, Bool.false_eq_true]
        split
        · exact ih
        · rename_i req' hreq'
          split at hreq'
          · cases hreq'
          · obtain rfl := Option.some.inj hreq'
            rw [List.filter_cons_of_neg (by simpa using he)]
            exact ih

/-- The stable sort serves the requests in that order. -/
theorem servingOrder_eq :
    servingOrder requests exchange =
      (requests.filter (demands exchange)).insertionSort ByPriority := by
  have hpos : (requests.zipIdx.filter fun p => demands exchange p.1).Pairwise (·.2 < ·.2) := by
    refine List.Pairwise.filter _ (List.pairwise_map.1 ?_)
    rw [List.zipIdx_map_snd]
    exact List.pairwise_lt_range' 1
  have hfst : (requests.zipIdx.filter fun p => demands exchange p.1).map Prod.fst =
      requests.filter (demands exchange) := by
    conv_rhs => rw [← List.zipIdx_map_fst 0 requests, List.filter_map]
    rfl
  rw [servingOrder, map_fst_insertionSort hpos, hfst]

theorem mem_servingOrder {req : AllocationRequest} :
    req ∈ servingOrder requests exchange ↔ req ∈ requests ∧ demands exchange req := by
  rw [servingOrder_eq, List.mem_insertionSort, List.mem_filter]

theorem demand_pos {req : AllocationRequest} (h : req ∈ servingOrder requests exchange) :
    0 < req.demand := by
  obtain ⟨-, h⟩ := mem_servingOrder.1 h
  simp only [demands, Bool.and_eq_true, decide_eq_true_eq] at h
  exact h.1

/-! ## The loops -/

theorem grant_exchange {capacity : ℤ} : ∀ al ∈ grant exchange capacity requests,
    al.exchange = exchange := by
  induction requests generalizing capacity with
  | nil => simp [grant]
  | cons req requests ih =>
    rw [grant]
    split
    · simp
    · intro al hal
      rcases List.mem_cons.1 hal with rfl | hal
      · rfl
      · exact ih al hal

/-- The names under which the requests are grouped do not matter to the loop. -/
theorem grant_rename {capacity : ℤ} :
    grant exchange capacity (requests.map fun req => { req with exchange := exchange }) =
      grant exchange capacity requests := by
  induction requests generalizing capacity with
  | nil => rfl
  | cons req requests ih => simp only [List.map_cons, grant, ih]

/-- **The loop serves the requests** from the capacity, and leaves out those that
    are given nothing. -/
theorem grant_eq {capacity : ℤ} (hc : 0 ≤ capacity) (hd : ∀ req ∈ requests, 0 < req.demand) :
    grant exchange capacity requests =
      ((serve AllocationRequest.demand capacity requests).filter fun p => 0 < p.2).map
        fun p => ⟨exchange, p.1.workClass, p.2⟩ := by
  induction requests generalizing capacity with
  | nil => rfl
  | cons req requests ih =>
    have hd' : ∀ req ∈ requests, 0 < req.demand := fun r hr => hd r (by simp [hr])
    rw [grant]
    split
    · rename_i h
      obtain rfl := le_antisymm h hc
      rw [List.filter_eq_nil_iff.2, List.map_nil]
      intro p hp
      rw [serve_zero (fun r hr => (hd r hr).le) p hp]
      decide
    · rename_i h
      have hmin : (if req.demand > capacity then capacity else req.demand) =
          min req.demand capacity := by
        split <;> omega
      have hpos : 0 < min req.demand capacity := lt_min (hd req (by simp)) (not_le.1 h)
      simp only [hmin, serve]
      rw [List.filter_cons_of_pos (by simpa using hpos), List.map_cons,
        ih (sub_min_nonneg _ _) hd']

/-- What is made for different keys, filtered by one of them. -/
theorem filter_flatMap {β κ : Type} [DecidableEq κ] {f : κ → List β} {key : β → κ} {ks : List κ}
    (hkey : ∀ k, ∀ b ∈ f k, key b = k) (hn : ks.Nodup) (k : κ) :
    (ks.flatMap f).filter (key · = k) = if k ∈ ks then f k else [] := by
  have hself : ∀ k', (f k').filter (key · = k) = if k' = k then f k' else [] := by
    intro k'
    split
    · rename_i h
      exact List.filter_eq_self.2 fun b hb => by simp [hkey k' b hb, h]
    · rename_i h
      exact List.filter_eq_nil_iff.2 fun b hb => by simp [hkey k' b hb, h]
  induction ks with
  | nil => rfl
  | cons k' ks ih =>
    obtain ⟨hk', hn⟩ := List.nodup_cons.1 hn
    rw [List.flatMap_cons, List.filter_append, hself, ih hn]
    by_cases h : k' = k
    · subst h
      simp [hk']
    · simp [h, Ne.symm h]

end

namespace BudgetAllocator
variable {a : BudgetAllocator} {requests : List AllocationRequest} {exchange : String}

/-- The allocations of an exchange. -/
theorem filter_allocate :
    (a.allocate requests).filter (·.exchange = exchange) = a.allocateTo requests exchange := by
  have hkey : ∀ e, ∀ al ∈ a.allocateTo requests e, al.exchange = e := by
    intro e al hal
    rw [allocateTo] at hal
    split at hal
    · simp at hal
    · exact grant_exchange al hal
  have hn : (exchanges requests).Nodup :=
    (List.perm_insertionSort _ _).nodup_iff.2 (List.nodup_dedup _)
  rw [allocate, filter_flatMap hkey hn]
  split
  · rfl
  · rename_i he
    have hnil : grouped requests exchange = [] := by
      refine List.filter_eq_nil_iff.2 fun req hreq heq => he ?_
      rw [exchanges, List.mem_insertionSort, List.mem_dedup]
      exact List.mem_map.2 ⟨req, hreq, by simpa using heq⟩
    rw [allocateTo, hnil]
    split <;> rfl

theorem allocateTo_eq (h : exchange ≠ "") :
    a.allocateTo requests exchange =
      ((serve AllocationRequest.demand (max ((a.capacityByExchange exchange).getD 0) 0)
        (servingOrder requests exchange)).filter fun p => 0 < p.2).map
          fun p => ⟨exchange, p.1.workClass, p.2⟩ := by
  rw [← grant_eq (le_max_right _ _) fun req hreq => demand_pos hreq, allocateTo]
  split
  · rename_i hc
    rw [max_eq_right hc]
    cases servingOrder requests exchange <;> rfl
  · rename_i hc
    have hsort := List.map_insertionSort ByPriority ByPriority
      (fun req : AllocationRequest => { req with exchange := exchange })
      (requests.filter (demands exchange)) fun _ _ _ _ => Iff.rfl
    rw [max_eq_left (not_le.1 hc).le, grouped_eq h, servingOrder_eq, ← hsort]
    exact grant_rename

/-- **What an exchange is granted.**  Its requests are served by the priority of
    their class and then by their position; the allocations are what they are
    given, where that is something; together it is the capacity or all they
    demand; and after a request that is not given all it demands none is given
    anything. -/
theorem allocate_exchange (h : exchange ≠ "") :
    let allocations := (a.allocate requests).filter (·.exchange = exchange)
    let capacity := (a.capacityByExchange exchange).getD 0
    (allocations.map Allocation.granted).sum = min (max capacity 0)
      ((requests.filter (demands exchange)).map AllocationRequest.demand).sum ∧
    ∃ served : List (AllocationRequest × ℤ), served.map Prod.fst = servingOrder requests exchange ∧
      allocations = (served.filter fun p => 0 < p.2).map
        (fun p => ⟨exchange, p.1.workClass, p.2⟩) ∧
      (∀ p ∈ served, 0 ≤ p.2 ∧ p.2 ≤ p.1.demand) ∧
      served.Pairwise fun p q => p.2 < p.1.demand → q.2 = 0 := by
  intro allocations capacity
  have hd : ∀ req ∈ servingOrder requests exchange, 0 ≤ req.demand :=
    fun req hreq => (demand_pos hreq).le
  have halloc : allocations = _ := filter_allocate.trans (allocateTo_eq h)
  have hbounds := serve_bounds (le_max_right capacity 0) hd
  refine ⟨?_, _, map_fst_serve, halloc, hbounds, serve_pairwise hd⟩
  have hsum := sum_serve (le_max_right capacity 0) hd
  rw [servingOrder_eq, ((List.perm_insertionSort _ _).map _).sum_eq] at hsum
  rw [← hsum, halloc, List.map_map, ← servingOrder_eq, ← sum_filter_pos fun p hp => (hbounds p hp).1]
  rfl

theorem allocate_exchange_scarce :
    let a : BudgetAllocator := ⟨fun e => if e = "binance" then some 5 else none⟩
    let requests : List AllocationRequest :=
      [⟨"binance", .debugRetry, 4⟩, ⟨" Binance ", .watchlistRealtime, 3⟩, ⟨"bybit", .debugRetry, 1⟩]
    a.allocate requests = [⟨"binance", .watchlistRealtime, 3⟩, ⟨"binance", .debugRetry, 2⟩] ∧
    (((a.allocate requests).filter (·.exchange = "binance")).map Allocation.granted).sum =
      min (max ((a.capacityByExchange "binance").getD 0) 0)
        ((requests.filter (demands "binance")).map AllocationRequest.demand).sum := by
  intro a requests
  have h : "binance" ≠ "" := by decide
  exact ⟨by decide +kernel, (allocate_exchange h).1⟩

/-- A request for the blank exchange is granted nothing, whatever its capacity. -/
theorem blank_exchange :
    let a : BudgetAllocator := ⟨fun e => if e = "" then some 5 else none⟩
    let requests : List AllocationRequest := [⟨" ", .watchlistRealtime, 3⟩]
    (((a.allocate requests).filter (·.exchange = "")).map Allocation.granted).sum = 0 ∧
    min (max ((a.capacityByExchange "").getD 0) 0)
      ((requests.filter (demands "")).map AllocationRequest.demand).sum = 3 := by
  decide +kernel

end BudgetAllocator

end Aggregator.Ratelimit
