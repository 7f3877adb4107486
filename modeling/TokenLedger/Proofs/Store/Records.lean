/-
# Reading the records of failures page by page

A listing of records is sorted by two numbers that many records may share, and sorting keeps those that
share both as they came (`filter_rank_sortedBy`). So a sorted list is told by its ranks and by the order
inside each of them (`eq_of_pairwise_of_filter_rank`), and it is all one whether a filter is applied
before the sorting or after it (`sortedBy_filter`). There is therefore one order of all records of a
store, and every listing, whatever its filter, limit and offset, is a page of those of them that the
filter selects (`Store.errors_of_pages`).

Key definitions: `ErrorFilter.Selects`, `ErrorRecord.Precedes`, `ErrorRecord.place`.
Key theorems: `filter_rank_sortedBy`, `eq_of_pairwise_of_filter_rank`, `sortedBy_filter`,
`ErrorFilter.passes_iff`, `ErrorRecord.order_isLE_iff`, `Store.total_of_resolved`,
`Store.errors_of_pages`.
-/
import TokenLedger.Proofs.Service.Listings
import TokenLedger.Proofs.Store.Paging

namespace TokenLedger

/-! ### Sorting and ties -/

section Ties

variable {α β : Type} [LinearOrder β] {order : α → α → Ordering} {rank : α → β}

/-- **Sorting leaves the items of one rank as they are.** -/
theorem filter_rank_sortedBy (h : ∀ a b, (order a b).isLE = true ↔ rank a ≤ rank b) (xs : List α)
    (r : β) : (sortedBy order xs).filter (fun a => rank a = r) = xs.filter fun a => rank a = r := by
  have htied : (xs.filter fun a => rank a = r).Pairwise fun a b => (order a b).isLE = true := by
    apply List.pairwise_of_forall_mem_list
    intro a ha b hb
    have harank : rank a = r := of_decide_eq_true (List.mem_filter.mp ha).2
    have hbrank : rank b = r := of_decide_eq_true (List.mem_filter.mp hb).2
    rw [h, harank, hbrank]
  have hkept : (xs.filter fun a => rank a = r).Sublist (sortedBy order xs) :=
    List.sublist_mergeSort (isLE_trans_of_rank h) (isLE_total_of_rank h) htied List.filter_sublist
  have hamong : (xs.filter fun a => rank a = r).Sublist
      ((sortedBy order xs).filter fun a => rank a = r) := by
    simpa only [List.filter_filter, Bool.and_self] using hkept.filter fun a => decide (rank a = r)
  have hlength : (xs.filter fun a => rank a = r).length =
      ((sortedBy order xs).filter fun a => rank a = r).length :=
    ((sortedBy_perm order xs).filter _).length_eq.symm
  exact (hamong.eq_of_length hlength).symm

theorem mem_iff_of_filter_rank {xs ys : List α}
    (h : ∀ r, (xs.filter fun a => rank a = r) = ys.filter fun a => rank a = r) (a : α) :
    a ∈ xs ↔ a ∈ ys := by
  have hrank : (a ∈ xs.filter fun b => rank b = rank a) ↔ a ∈ ys.filter fun b => rank b = rank a := by
    rw [h]
  simpa using hrank

theorem filter_rank_of_cons {a : α} {xs ys : List α}
    (h : ∀ r, ((a :: xs).filter fun b => rank b = r) = (a :: ys).filter fun b => rank b = r) (r : β) :
    (xs.filter fun b => rank b = r) = ys.filter fun b => rank b = r := by
  have hr := h r
  by_cases ha : rank a = r
  · rw [List.filter_cons_of_pos (by simpa using ha), List.filter_cons_of_pos (by simpa using ha)] at hr
    exact List.tail_eq_of_cons_eq hr
  · rw [List.filter_cons_of_neg (by simpa using ha), List.filter_cons_of_neg (by simpa using ha)] at hr
    exact hr

/-- The first item of a sorted list is of the least rank. -/
theorem rank_le_of_mem {a b : α} {xs : List α}
    (h : (a :: xs).Pairwise fun a b => rank a ≤ rank b) (hb : b ∈ a :: xs) : rank a ≤ rank b := by
  rcases List.mem_cons.mp hb with heq | hmem
  · rw [heq]
  · exact (List.pairwise_cons.mp h).1 b hmem

/-- **A sorted list is told by its items of each rank.** -/
theorem eq_of_pairwise_of_filter_rank {xs ys : List α}
    (hxs : xs.Pairwise fun a b => rank a ≤ rank b) (hys : ys.Pairwise fun a b => rank a ≤ rank b)
    (h : ∀ r, (xs.filter fun a => rank a = r) = ys.filter fun a => rank a = r) : xs = ys := by
  have hmem := mem_iff_of_filter_rank h
  induction xs generalizing ys with
  | nil => exact (List.eq_nil_iff_forall_not_mem.mpr fun a ha => by simpa using (hmem a).mpr ha).symm
  | cons a xs ih =>
    cases ys with
    | nil => exact absurd ((hmem a).mp List.mem_cons_self) List.not_mem_nil
    | cons b ys =>
      -- both are of the least rank, and so both are the first of it
      have hrank : rank b = rank a :=
        le_antisymm (rank_le_of_mem hys ((hmem a).mp List.mem_cons_self))
          (rank_le_of_mem hxs ((hmem b).mpr List.mem_cons_self))
      have hfirst := h (rank a)
      rw [List.filter_cons_of_pos (by simp), List.filter_cons_of_pos (by simpa using hrank)] at hfirst
      have heq : a = b := List.head_eq_of_cons_eq hfirst
      rw [← heq] at h
      have hrest := filter_rank_of_cons h
      have htail : xs = ys := ih (List.pairwise_cons.mp hxs).2 (List.pairwise_cons.mp hys).2 hrest
        (mem_iff_of_filter_rank hrest)
      rw [heq, htail]

/-- **It is all one whether a list is filtered before it is sorted or after it.** -/
theorem sortedBy_filter (h : ∀ a b, (order a b).isLE = true ↔ rank a ≤ rank b) (p : α → Bool)
    (xs : List α) : sortedBy order (xs.filter p) = (sortedBy order xs).filter p := by
  refine eq_of_pairwise_of_filter_rank (pairwise_sortedBy h _) ((pairwise_sortedBy h xs).filter p) ?_
  intro r
  calc (sortedBy order (xs.filter p)).filter (fun a => rank a = r)
      = (xs.filter p).filter fun a => rank a = r := filter_rank_sortedBy h _ r
    _ = (xs.filter fun a => rank a = r).filter p := List.filter_comm _ _ _
    _ = ((sortedBy order xs).filter fun a => rank a = r).filter p := by
      rw [filter_rank_sortedBy h xs r]
    _ = ((sortedBy order xs).filter p).filter fun a => rank a = r := List.filter_comm _ _ _

end Ties

/-! ### What is listed, and in which order -/

/-- A filter selects a record: it has the label that is asked for, and is resolved or not as is asked
for. The empty text asks for nothing. -/
structure ErrorFilter.Selects (f : ErrorFilter) (e : ErrorRecord) : Prop where
  label : ∀ label, f.label = some label → label ≠ "" → e.label = label
  resolved : ∀ resolved, f.resolved = some resolved → e.resolved = resolved

namespace ErrorFilter

variable {f : ErrorFilter} {e : ErrorRecord}

theorem passes_iff : f.passes e = true ↔ f.Selects e := by
  have hresolved : f.resolved.all (e.resolved == ·) = true ↔
      ∀ resolved, f.resolved = some resolved → e.resolved = resolved := by
    simp only [Option.all_eq_true_iff_get, beq_iff_eq]
    constructor
    · intro h resolved heq
      simpa [heq] using h (by simp [heq])
    · intro h hsome
      exact h _ (Option.some_get hsome).symm
  unfold passes
  rw [Bool.and_eq_true, wished_iff, hresolved]
  simp only [beq_iff_eq]
  constructor
  · intro h
    exact ⟨h.1, h.2⟩
  · intro h
    exact ⟨h.label, h.resolved⟩

instance (f : ErrorFilter) (e : ErrorRecord) : Decidable (f.Selects e) :=
  decidable_of_iff (f.passes e = true) passes_iff

theorem filter_passes (f : ErrorFilter) (es : List ErrorRecord) :
    es.filter f.passes = es.filter fun e => f.Selects e := by
  apply List.filter_congr
  intro e _
  rw [Bool.eq_iff_iff, decide_eq_true_iff, passes_iff]

/-- To ask for a state as well is to ask for it among what is selected without. -/
theorem filter_of_resolved (label : Option String) (b : Bool) (es : List ErrorRecord) :
    es.filter (passes ⟨label, some b⟩) =
      (es.filter (passes ⟨label, none⟩)).filter fun e => e.resolved == b := by
  rw [List.filter_filter]
  apply List.filter_congr
  intro e _
  simp [passes, Bool.and_comm]

end ErrorFilter

/-- A record may stand before another one: it is not older, and if both are equally old its version is
not the smaller one, nor missing where the other has one. -/
structure ErrorRecord.Precedes (a b : ErrorRecord) : Prop where
  time : b.time ≤ a.time
  version : a.time = b.time → ∀ n, b.version = some n → ∃ m, a.version = some m ∧ n ≤ m

namespace ErrorRecord

/-- The version of a record; none is before all. -/
def versionPlace (e : ErrorRecord) : WithBot ℤ :=
  e.version

/-- The place of a record in a listing: the newest comes first, and among equally old ones the greatest
version. -/
def place (e : ErrorRecord) : ℕᵒᵈ ×ₗ (WithBot ℤ)ᵒᵈ :=
  toLex (OrderDual.toDual e.time, OrderDual.toDual e.versionPlace)

variable {a b : ErrorRecord}

/-- The order of a listing is that of the places. -/
theorem order_isLE_iff (a b : ErrorRecord) : (a.order b).isLE = true ↔ a.place ≤ b.place := by
  have hversion : (compare b.version a.version).isLE = true ↔ b.versionPlace ≤ a.versionPlace := by
    rw [Ordering.isLE_iff_eq_lt_or_eq_eq, le_iff_lt_or_eq]
    exact or_congr compare_option_eq_lt_iff compare_option_eq_eq_iff
  simp only [order, compareLex, Ordering.isLE_then_iff_or, compare_lt_iff_lt, compare_eq_iff_eq,
    hversion, place, Prod.Lex.toLex_le_toLex, OrderDual.toDual_lt_toDual, OrderDual.toDual_le_toDual,
    EmbeddingLike.apply_eq_iff_eq]
  rw [eq_comm]

theorem versionPlace_le_iff : b.versionPlace ≤ a.versionPlace ↔
    ∀ n, b.version = some n → ∃ m, a.version = some m ∧ n ≤ m :=
  WithBot.le_iff_forall

/-- The places say which record may stand before which. -/
theorem place_le_iff : a.place ≤ b.place ↔ a.Precedes b := by
  simp only [place, Prod.Lex.toLex_le_toLex, OrderDual.toDual_lt_toDual, OrderDual.toDual_le_toDual,
    EmbeddingLike.apply_eq_iff_eq, versionPlace_le_iff]
  constructor
  · intro h
    rcases h with hlt | ⟨heq, hversion⟩
    · exact ⟨hlt.le, fun heq => absurd heq hlt.ne'⟩
    · exact ⟨heq.ge, fun _ => hversion⟩
  · intro h
    rcases h.time.lt_or_eq with hlt | heq
    · exact .inl hlt
    · exact .inr ⟨heq.symm, h.version heq.symm⟩

theorem place_eq_iff : a.place = b.place ↔ a.time = b.time ∧ a.version = b.version := by
  simp only [place, EmbeddingLike.apply_eq_iff_eq, Prod.mk.injEq]
  exact Iff.rfl

theorem Precedes.antisymm (hab : a.Precedes b) (hba : b.Precedes a) :
    a.time = b.time ∧ a.version = b.version :=
  place_eq_iff.mp (le_antisymm (place_le_iff.mpr hab) (place_le_iff.mpr hba))

instance (a b : ErrorRecord) : Decidable (a.Precedes b) :=
  decidable_of_iff (a.place ≤ b.place) place_le_iff

end ErrorRecord

/-! ### Pages of a listing -/

namespace Store

/-- All records of a store in the order of a listing. -/
def listedErrors (s : Store) : List ErrorRecord :=
  sortedBy ErrorRecord.order s.errors

/-- **A listing is a page of what its filter selects of one order of all records.** -/
theorem listErrors_eq_ofPage (s : Store) (f : ErrorFilter) (p : Page) :
    s.listErrors f p = .ofPage p (s.listedErrors.filter fun e => f.Selects e) := by
  rw [listErrors, sortedBy_filter ErrorRecord.order_isLE_iff, ErrorFilter.filter_passes, listedErrors]

theorem listedErrors_perm (s : Store) : s.listedErrors.Perm s.errors :=
  sortedBy_perm _ _

theorem pairwise_listedErrors (s : Store) : s.listedErrors.Pairwise ErrorRecord.Precedes :=
  (pairwise_sortedBy ErrorRecord.order_isLE_iff s.errors).imp ErrorRecord.place_le_iff.mp

/-- Records of one time and one version stand as they came. -/
theorem filter_ties_listedErrors (s : Store) (c : ErrorRecord) :
    s.listedErrors.filter (fun e => e.time = c.time ∧ e.version = c.version) =
      s.errors.filter fun e => e.time = c.time ∧ e.version = c.version := by
  have hplace := filter_rank_sortedBy ErrorRecord.order_isLE_iff s.errors c.place
  simpa only [ErrorRecord.place_eq_iff, listedErrors] using hplace

theorem total_listErrors (s : Store) (f : ErrorFilter) (p : Page) :
    (s.listErrors f p).total = (s.errors.filter fun e => f.Selects e).length := by
  rw [listErrors_eq_ofPage]
  exact ((listedErrors_perm s).filter _).length_eq

/-- **Every record is resolved or is not**, and so the totals of both add up. -/
theorem total_of_resolved (s : Store) (label : Option String) (p q r : Page) :
    (s.listErrors ⟨label, some true⟩ p).total + (s.listErrors ⟨label, some false⟩ q).total =
      (s.listErrors ⟨label, none⟩ r).total := by
  have htrue := ErrorFilter.filter_of_resolved label true s.errors
  have hfalse := ErrorFilter.filter_of_resolved label false s.errors
  simp only [total_listErrors, ← ErrorFilter.filter_passes, htrue, hfalse]
  rw [List.length_eq_length_filter_add (l := s.errors.filter (ErrorFilter.passes ⟨label, none⟩))
    fun e => e.resolved]
  simp

/-- **The records of failures are listed exactly.** There is one order of all records of a store, in
which no older record is before a newer one, and among equally old ones no smaller version before a
greater one and none before any; records of one time and one version stay as they came. The pages of a
listing, of whatever size, are what the filter selects of this order, and the first empty one comes
after all of it. Every page tells how many records are selected, whatever its limit and offset, and the
numbers of resolved records and of others add up. A command or a request for a page gets it and leaves
the store as it was, unless a number that is asked for does not fit; a request also fails if something
on its page cannot be shown. -/
theorem errors_of_pages (s : Store) :
    ∃ order : List ErrorRecord,
      order.Perm s.errors ∧ order.Pairwise ErrorRecord.Precedes ∧
      (∀ c : ErrorRecord, order.filter (fun e => e.time = c.time ∧ e.version = c.version) =
        s.errors.filter fun e => e.time = c.time ∧ e.version = c.version) ∧
      (∀ (f : ErrorFilter) (limit : ℕ), 1 ≤ limit →
        (List.range (Page.count limit (order.filter fun e => f.Selects e).length)).flatMap
          (fun k => (s.listErrors f (.nth limit k)).rows) = order.filter (fun e => f.Selects e) ∧
        ∀ k, ((s.listErrors f (.nth limit k)).rows = [] ↔
            Page.count limit (order.filter fun e => f.Selects e).length ≤ k) ∧
          (s.listErrors f (.nth limit k)).rows.length ≤ limit) ∧
      (∀ f p, (s.listErrors f p).total = (s.errors.filter fun e => f.Selects e).length) ∧
      (∀ label p q r,
        (s.listErrors ⟨label, some true⟩ p).total + (s.listErrors ⟨label, some false⟩ q).total =
          (s.listErrors ⟨label, none⟩ r).total) ∧
      (∀ f p time, (Command.listErrors f p).run s time =
        if p.fits then .ok (s, .errorPage (s.listErrors f p)) else .error (.store .outOfRange)) ∧
      ∀ (r : Request) f limit offset time, r.AsksForErrors f limit offset →
        Service.respond s time r = (s, if Whole.fits offset then
            match (s.listErrors f ⟨some limit, some offset⟩).rows.mapM Service.shownError with
            | none => Service.fail
            | some rows => Service.errorsReply rows (s.listErrors f ⟨some limit, some offset⟩).total
                limit offset
          else Service.fail) := by
  refine ⟨s.listedErrors, listedErrors_perm s, pairwise_listedErrors s, filter_ties_listedErrors s,
    ?pages, total_listErrors s, total_of_resolved s, fun _ _ _ => rfl,
    fun r f limit offset time h => Service.respond_of_errors h s time⟩
  case pages =>
    intro f limit hlimit
    simp only [listErrors_eq_ofPage, Listing.ofPage]
    exact ⟨Page.flatMap_nth hlimit _, fun k => ⟨Page.nth_eq_nil_iff hlimit k _,
      Page.length_nth_le limit k _⟩⟩

/-- A store with four records: an old one and three later ones of one age, of which the first has no
version and the last is resolved. -/
def fourErrors : Store :=
  ⟨[], [⟨some 9, "a", none, true, false, none, 0⟩, ⟨none, "b", none, true, false, none, 1⟩,
    ⟨some 3, "a", none, true, false, none, 1⟩, ⟨some 5, "a", none, true, true, none, 1⟩]⟩

/-- Of the records that are not resolved, the one with a version comes before the one without that is as
old, and the old one comes last. -/
theorem errors_of_two_pages :
    (fourErrors.listErrors ⟨some "", some false⟩ (.nth 2 0)).rows ++
        (fourErrors.listErrors ⟨some "", some false⟩ (.nth 2 1)).rows =
      [⟨some 3, "a", none, true, false, none, 1⟩, ⟨none, "b", none, true, false, none, 1⟩,
        ⟨some 9, "a", none, true, false, none, 0⟩] ∧
    (fourErrors.listErrors ⟨some "", some false⟩ (.nth 2 2)).rows = [] ∧
    (fourErrors.listErrors ⟨some "", none⟩ (.nth 2 7)).total = 4 := by
  obtain ⟨order, hperm, hsorted, -, hpages, htotal, -⟩ := errors_of_pages fourErrors
  have horder : order = fourErrors.errors.reverse := by
    have hpair : order.Perm fourErrors.errors.reverse := hperm.trans (by decide)
    refine hpair.eq_of_pairwise ?_ hsorted (by decide)
    intro x y hx hy hxy hyx
    have htold : ∀ x ∈ fourErrors.errors.reverse, ∀ y ∈ fourErrors.errors.reverse,
        x.time = y.time ∧ x.version = y.version → x = y := by decide
    exact htold x (hpair.mem_iff.mp hx) y hy (hxy.antisymm hyx)
  obtain ⟨hrows, hempty⟩ := hpages ⟨some "", some false⟩ 2 (by decide)
  have hselected : (order.filter fun e => (ErrorFilter.mk (some "") (some false)).Selects e) =
      [⟨some 3, "a", none, true, false, none, 1⟩, ⟨none, "b", none, true, false, none, 1⟩,
        ⟨some 9, "a", none, true, false, none, 0⟩] := by
    rw [horder]
    decide
  rw [hselected] at hrows hempty
  refine ⟨?_, (hempty 2).1.mpr (by decide), ?_⟩
  · simpa [Page.count, List.range_succ] using hrows
  · rw [htotal]
    decide

/-- A record is on a page of a store, and yet the page cannot be had, since its limit does not fit. And
the service, which asks for no more than that the offset is natural, fails where that does not fit. -/
theorem listing_fails_of_limit :
    ∃ (s : Store) (e : ErrorRecord),
      (Command.noteError ⟨none, some "x", some "m", false, false, none⟩).run .empty 0 =
        .ok (s, .noted e) ∧
      e ∈ (s.listErrors ⟨none, none⟩ (.nth (2 ^ 63) 0)).rows ∧
      (Command.listErrors ⟨none, none⟩ (.nth (2 ^ 63) 0)).run s 1 = .error (.store .outOfRange) ∧
      Service.respond s 1 ⟨"GET", "/api/errors", [("offset", "9223372036854775808")], none⟩ =
        (s, Service.fail) := by
  have hasked : Request.AsksForErrors
      ⟨"GET", "/api/errors", [("offset", "9223372036854775808")], none⟩ ⟨none, none⟩ 50 (2 ^ 63) :=
    ⟨by decide, Request.verb_of_method rfl (by decide), by decide, by decide, by decide, by decide⟩
  let s : Store := ⟨[], [⟨none, "x", some "m", false, false, none, 0⟩]⟩
  have hlisted := listedErrors_perm s
  have hlength : (s.listedErrors.filter fun e => (ErrorFilter.mk none none).Selects e).length ≤
      2 ^ 63 := by
    apply (List.length_filter_le _ _).trans
    rw [hlisted.length_eq]
    decide
  refine ⟨s, ⟨none, "x", some "m", false, false, none, 0⟩, rfl, ?_, rfl, ?_⟩
  · rw [listErrors_eq_ofPage]
    show _ ∈ (Page.nth (2 ^ 63) 0).of _
    rw [Page.of_nth, Nat.zero_mul, List.drop_zero, List.take_of_length_le hlength]
    exact List.mem_filter.mpr ⟨hlisted.mem_iff.mpr List.mem_cons_self, by decide⟩
  · rw [Service.respond_of_errors hasked]
    rfl

end Store
end TokenLedger
