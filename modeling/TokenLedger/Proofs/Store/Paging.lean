/-
# Reading a listing page by page

A page is a stretch of a list, and the pages of one size, each from where the last one ended, are the
list again (`Page.flatMap_nth`); the first empty one comes after all of it (`Page.nth_eq_nil_iff`). So
nothing is lost or repeated between pages if the list is the same for each of them, and a listing is:
what passes the filter, in an order that leaves no choice between activities of different keys
(`Activity.order_isLE_iff`).

Key definitions: `Page.nth`, `Page.count`, `ActivityFilter.Selects`, `Activity.indexPlace`,
`Activity.place`.
Key theorems: `Page.flatMap_nth`, `Page.nth_eq_nil_iff`, `pairwise_sortedBy`,
`ActivityFilter.passes_iff`, `Activity.order_isLE_iff`, `Store.activities_of_pages`.
-/
import Mathlib
import TokenLedger.Proofs.Activity.Given
import TokenLedger.Session

namespace TokenLedger

/-! ### Pages of a list -/

namespace Page

variable {α : Type} {limit : ℕ} {xs : List α}

/-- The page of a size that comes after `k` pages of that size. -/
def nth (limit k : ℕ) : Page :=
  ⟨some limit, some (k * limit : ℕ)⟩

/-- The number of pages of a size that a list of a length fills, the last one perhaps in part. -/
def count (limit length : ℕ) : ℕ :=
  (length + limit - 1) / limit

theorem of_nth (limit k : ℕ) (xs : List α) : (nth limit k).of xs = (xs.drop (k * limit)).take limit := by
  have hlimit : ¬ (limit : ℤ) < 0 := by omega
  simp only [Page.of, nth, Option.getD_some, Int.toNat_natCast, if_neg hlimit]

theorem length_nth_le (limit k : ℕ) (xs : List α) : ((nth limit k).of xs).length ≤ limit := by
  rw [of_nth]
  exact List.length_take_le _ _

/-- The first pages are the first part of the list. -/
theorem flatMap_nth_take (limit n : ℕ) (xs : List α) :
    (List.range n).flatMap (fun k => (nth limit k).of xs) = xs.take (n * limit) := by
  induction n with
  | zero => simp
  | succ n ih =>
    rw [List.range_succ, List.flatMap_append, ih, List.flatMap_singleton, of_nth, Nat.succ_mul,
      List.take_add]

theorem count_le_iff (h : 1 ≤ limit) (length k : ℕ) : count limit length ≤ k ↔ length ≤ k * limit := by
  unfold count
  rw [Nat.div_le_iff_le_mul_add_pred h, Nat.mul_comm limit k]
  omega

/-- A page is empty exactly if it comes after the whole list. -/
theorem nth_eq_nil_iff (h : 1 ≤ limit) (k : ℕ) (xs : List α) :
    (nth limit k).of xs = [] ↔ count limit xs.length ≤ k := by
  rw [of_nth, count_le_iff h, List.take_eq_nil_iff, List.drop_eq_nil_iff]
  omega

/-- **The pages of a list are the list.** -/
theorem flatMap_nth (h : 1 ≤ limit) (xs : List α) :
    (List.range (count limit xs.length)).flatMap (fun k => (nth limit k).of xs) = xs := by
  rw [flatMap_nth_take]
  exact List.take_of_length_le ((count_le_iff h _ _).mp le_rfl)

end Page

/-! ### Sorted lists -/

section Sorted

variable {α β : Type} [LinearOrder β] {order : α → α → Ordering} {rank : α → β}

theorem sortedBy_perm (order : α → α → Ordering) (xs : List α) : (sortedBy order xs).Perm xs :=
  List.mergeSort_perm xs _

/-- An order of ranks is transitive. -/
theorem isLE_trans_of_rank (h : ∀ a b, (order a b).isLE = true ↔ rank a ≤ rank b) (a b c : α)
    (hab : (order a b).isLE = true) (hbc : (order b c).isLE = true) : (order a c).isLE = true := by
  rw [h] at hab hbc ⊢
  exact hab.trans hbc

/-- An order of ranks leaves no two items apart. -/
theorem isLE_total_of_rank (h : ∀ a b, (order a b).isLE = true ↔ rank a ≤ rank b) (a b : α) :
    ((order a b).isLE || (order b a).isLE) = true := by
  rw [Bool.or_eq_true, h, h]
  exact le_total (rank a) (rank b)

/-- A list in the order of a rank is sorted by it. -/
theorem pairwise_sortedBy (h : ∀ a b, (order a b).isLE = true ↔ rank a ≤ rank b) (xs : List α) :
    (sortedBy order xs).Pairwise (fun a b => rank a ≤ rank b) := by
  refine (List.pairwise_mergeSort (isLE_trans_of_rank h) (isLE_total_of_rank h) xs).imp ?_
  intro a b hab
  exact (h a b).mp hab

end Sorted

/-! ### What is listed, and in which order -/

theorem wished_iff {wish : Option String} {test : String → Bool} :
    wished wish test = true ↔ ∀ w, wish = some w → w ≠ "" → test w = true := by
  cases wish with
  | none => simp [wished]
  | some w =>
    simp only [wished, Bool.or_eq_true, String.isEmpty_iff, Option.some.injEq, forall_eq']
    tauto

/-- A filter selects an activity: it has the hashes that are asked for, and the token left or reached
the address that is asked for. The empty text asks for nothing. -/
structure ActivityFilter.Selects (f : ActivityFilter) (a : Activity) : Prop where
  tokenHash : ∀ hash, f.tokenHash = some hash → hash ≠ "" → a.tokenHash = hash
  collectionHash : ∀ hash, f.collectionHash = some hash → hash ≠ "" → a.collectionHash = hash
  address : ∀ address, f.address = some address → address ≠ "" →
    a.sender = some address ∨ a.receiver = some address

namespace ActivityFilter

variable {f : ActivityFilter} {a : Activity}

theorem passes_iff : f.passes a = true ↔ f.Selects a := by
  unfold passes
  rw [Bool.and_eq_true, Bool.and_eq_true, wished_iff, wished_iff, wished_iff]
  simp only [beq_iff_eq, Bool.or_eq_true]
  constructor
  · rintro ⟨⟨htoken, hcollection⟩, haddress⟩
    exact ⟨htoken, hcollection, haddress⟩
  · rintro ⟨htoken, hcollection, haddress⟩
    exact ⟨⟨htoken, hcollection⟩, haddress⟩

instance (f : ActivityFilter) (a : Activity) : Decidable (f.Selects a) :=
  decidable_of_iff (f.passes a = true) passes_iff

end ActivityFilter

/-- A number that may be missing comes after what is missing and before the greater numbers. -/
theorem compare_option_eq_lt_iff {m n : WithBot ℤ} :
    @compare (Option ℤ) _ m n = .lt ↔ m < n := by
  cases m with
  | bot =>
    cases n with
    | bot => exact iff_of_false (by decide) (lt_irrefl (⊥ : WithBot ℤ))
    | coe j => exact iff_of_true rfl (WithBot.bot_lt_coe j)
  | coe i =>
    cases n with
    | bot => exact iff_of_false (fun h => by cases h) (not_lt_bot (a := (i : WithBot ℤ)))
    | coe j => exact compare_lt_iff_lt.trans (WithBot.coe_lt_coe (a := i) (b := j)).symm

theorem compare_option_eq_eq_iff {m n : WithBot ℤ} : @compare (Option ℤ) _ m n = .eq ↔ m = n :=
  Std.LawfulEqOrd.compare_eq_iff_eq

namespace Activity

/-- The index of an activity; none is before all. -/
def indexPlace (a : Activity) : WithBot ℤ :=
  a.index

/-- The place of an activity in a listing: the latest version comes first, in a version no index
before the first one, and then the rest of the key decides. -/
def place (a : Activity) : ℤᵒᵈ ×ₗ WithBot ℤ ×ₗ String ×ₗ ℤ ×ₗ ℤ :=
  toLex (OrderDual.toDual a.key.version, toLex (a.indexPlace, toLex (a.key.account,
    toLex (a.key.creationNumber, a.key.sequenceNumber))))

variable {a b : Activity}

/-- The order of a listing is that of the places. -/
theorem order_isLE_iff (a b : Activity) : (a.order b).isLE = true ↔ a.place ≤ b.place := by
  have hindexLt : compare a.index b.index = .lt ↔ a.indexPlace < b.indexPlace :=
    compare_option_eq_lt_iff
  have hindexEq : compare a.index b.index = .eq ↔ a.indexPlace = b.indexPlace :=
    compare_option_eq_eq_iff
  have hnumber : ∀ m n : ℤ, (compare m n).isLE = true ↔ m ≤ n := fun _ _ =>
    Ordering.isLE_iff_ne_gt.trans compare_le_iff_le
  simp only [order, ActivityKey.order, compareLex, compareOn, Ordering.isLE_then_iff_or,
    compare_lt_iff_lt, compare_eq_iff_eq, hindexLt, hindexEq, hnumber,
    place, Prod.Lex.toLex_le_toLex, OrderDual.toDual_lt_toDual, EmbeddingLike.apply_eq_iff_eq]
  -- the order of the keys starts with the version once more
  by_cases hversion : a.key.version = b.key.version
  · simp only [hversion, lt_irrefl, true_and, false_or]
  · simp only [hversion, Ne.symm hversion, false_and, or_false]

/-- Activities in one place have one key. -/
theorem key_eq_of_place_eq (h : a.place = b.place) : a.key = b.key := by
  simp only [place, EmbeddingLike.apply_eq_iff_eq, Prod.mk.injEq] at h
  obtain ⟨hversion, -, haccount, hcreation, hsequence⟩ := h
  calc a.key = ⟨a.key.version, a.key.account, a.key.creationNumber, a.key.sequenceNumber⟩ := rfl
    _ = b.key := by rw [hversion, haccount, hcreation, hsequence]

end Activity

/-! ### Pages of a listing -/

namespace Store

variable {s : Store}

/-- No two activities of different keys share a place. -/
theorem pairwise_place_lt {rows : List Activity} (hkeys : (rows.map Activity.key).Nodup)
    (h : rows.Pairwise fun a b => a.place ≤ b.place) :
    rows.Pairwise fun a b => a.place < b.place := by
  have hne : rows.Pairwise fun a b => a.key ≠ b.key := List.pairwise_map.mp hkeys
  refine (h.and hne).imp ?_
  rintro a b ⟨hle, hkey⟩
  exact lt_of_le_of_ne hle fun heq => hkey (Activity.key_eq_of_place_eq heq)

/-- If the keys of a store are distinct, no two of its activities are in one place, however many of them
are listed. -/
theorem pairwise_place_sortedBy (h : s.keys.Nodup) {as : List Activity}
    (has : as.Sublist s.activities) :
    (sortedBy Activity.order as).Pairwise fun a b => a.place < b.place := by
  have hkeys : ((sortedBy Activity.order as).map Activity.key).Nodup :=
    ((sortedBy_perm _ as).map _).nodup_iff.mpr (h.sublist (has.map _))
  exact pairwise_place_lt hkeys (pairwise_sortedBy Activity.order_isLE_iff as)

/-- **Reading page by page loses and repeats nothing.** The pages of a listing from the first one to
the last that is not empty are the activities that the filter selects, each as often as it is stored,
in the order of their places; if the keys of the store are distinct, no two of them are in one place.
No page is longer than its limit, and every page tells how many activities are selected, whatever its
limit and offset. A command gets such a page, unless a number that it asks for does not fit. -/
theorem activities_of_pages (s : Store) (f : ActivityFilter) {limit : ℕ} (h : 1 ≤ limit) :
    ∃ rows : List Activity,
      rows.Perm (s.activities.filter fun a => f.Selects a) ∧
      rows.Pairwise (fun a b => a.place ≤ b.place) ∧
      (s.keys.Nodup → rows.Pairwise fun a b => a.place < b.place) ∧
      (List.range (Page.count limit rows.length)).flatMap
        (fun k => (s.listActivities f (.nth limit k)).rows) = rows ∧
      (∀ k, (s.listActivities f (.nth limit k)).rows = [] ↔ Page.count limit rows.length ≤ k) ∧
      (∀ k, (s.listActivities f (.nth limit k)).rows.length ≤ limit) ∧
      (∀ p, (s.listActivities f p).total = rows.length) ∧
      ∀ p time, (Command.listActivities f p).run s time =
        if p.fits then .ok (s, .activityPage (s.listActivities f p))
        else .error (.store .outOfRange) := by
  have hfilter : s.activities.filter f.passes = s.activities.filter fun a => f.Selects a :=
    List.filter_congr fun a _ => by rw [Bool.eq_iff_iff, decide_eq_true_iff, ActivityFilter.passes_iff]
  have hsorted := pairwise_sortedBy Activity.order_isLE_iff (s.activities.filter f.passes)
  have hperm := sortedBy_perm Activity.order (s.activities.filter f.passes)
  refine ⟨sortedBy Activity.order (s.activities.filter f.passes), hfilter ▸ hperm, hsorted,
    fun hkeys => ?_, Page.flatMap_nth h _, fun k => Page.nth_eq_nil_iff h k _,
    fun k => Page.length_nth_le limit k _, fun _ => rfl, fun _ _ => rfl⟩
  have hselected : ((s.activities.filter f.passes).map Activity.key).Nodup :=
    hkeys.sublist (List.filter_sublist.map _)
  exact pairwise_place_lt ((hperm.map _).nodup_iff.mpr hselected) hsorted

/-- Two mints, one to a page: the later one comes first. -/
theorem activities_of_two_pages : ∃ a b : Activity,
    (Transaction.minting 1).given = [a] ∧ (Transaction.minting 2).given = [b] ∧
    ((Store.mk [a, b] []).listActivities ⟨some "", none, none⟩ (.nth 1 0)).rows ++
      ((Store.mk [a, b] []).listActivities ⟨some "", none, none⟩ (.nth 1 1)).rows = [b, a] ∧
    ((Store.mk [a, b] []).listActivities ⟨some "", none, none⟩ (.nth 1 2)).rows = [] := by
  obtain ⟨a, -, -, hone⟩ := Transaction.exists_activities_of_minting 1
  obtain ⟨b, -, -, htwo⟩ := Transaction.exists_activities_of_minting 2
  have ha := Transaction.given_of_ok hone
  have hb := Transaction.given_of_ok htwo
  have hva : a.key.version = 1 := Transaction.version_of_mem_given (t := .minting 1) (by simp [ha])
  have hvb : b.key.version = 2 := Transaction.version_of_mem_given (t := .minting 2) (by simp [hb])
  have hlt : b.place < a.place := by
    have hversion : a.key.version < b.key.version := by omega
    exact Prod.Lex.toLex_lt_toLex.mpr (.inl (OrderDual.toDual_lt_toDual.mpr hversion))
  obtain ⟨rows, hperm, -, hstrict, hpages, hempty, -⟩ :=
    activities_of_pages (Store.mk [a, b] []) ⟨some "", none, none⟩ le_rfl
  have hall : ∀ c, (ActivityFilter.mk (some "") none none).Selects c := fun c =>
    ActivityFilter.passes_iff.mp rfl
  have hkeys : (Store.mk [a, b] []).keys.Nodup := by
    have hne : a.key ≠ b.key := fun heq => by rw [heq, hvb] at hva; cases hva
    simpa [keys] using hne
  have hrows : rows = [b, a] := by
    have hpair : rows.Perm [b, a] := by
      refine (hperm.trans ?_).trans (.swap b a [])
      simp [hall]
    refine hpair.eq_of_pairwise (fun c d _ _ hcd hdc => absurd hcd hdc.not_gt) (hstrict hkeys) ?_
    simpa using hlt
  have hcount : Page.count 1 rows.length = 2 := by
    rw [hrows]
    show Page.count 1 2 = 2
    decide
  rw [hcount, hrows] at hpages
  rw [hcount] at hempty
  exact ⟨a, b, ha, hb, by simpa [List.range_succ] using hpages, (hempty 2).mpr le_rfl⟩

/-- A mint is on the first page of a store, and yet the page cannot be had, since its limit does not
fit. -/
theorem paging_fails_of_limit : ∃ a : Activity,
    (Transaction.minting 1).given = [a] ∧
    ((Store.mk [a] []).listActivities ⟨none, none, none⟩ (.nth (2 ^ 63) 0)).rows = [a] ∧
    (Command.listActivities ⟨none, none, none⟩ (.nth (2 ^ 63) 0)).run (Store.mk [a] []) 0 =
      .error (.store .outOfRange) := by
  obtain ⟨a, -, -, ha⟩ := Transaction.exists_activities_of_minting 1
  refine ⟨a, Transaction.given_of_ok ha, ?_, rfl⟩
  have hsorted : sortedBy Activity.order [a] = [a] := List.perm_singleton.mp (sortedBy_perm _ [a])
  show (Page.nth (2 ^ 63) 0).of (sortedBy Activity.order [a]) = [a]
  rw [hsorted, Page.of_nth, Nat.zero_mul, List.drop_zero]
  exact List.take_of_length_le (by norm_num)

end Store
end TokenLedger
