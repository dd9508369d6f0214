import Logwire.Proofs.Index.History
import Mathlib.Data.Prod.Lex
import Mathlib.Data.String.Basic
import Mathlib.Tactic.Linarith

/-!
# Logwire.Proofs.Index.Pages

The listings of an index and their pages.

A listing is told by what it shows: each document of the wanted types with its
place, in a strict order of ids and types, `IsListing`.  There is only one such
row of hits, `IsListing.unique`, and sorting what matches gives it.  A page is a
window of it.

* `windowed_ofQuery` — the page of any query is the window of the ranks from
  `page * perPage` up to `(page + 1) * perPage`, unless its bounds are negative
  and meet hits when they count from the end of the listing;
* `paged_after` — read from the first page up to the first empty one, the pages
  make up the listing, in the one order and, reversed, in the other.
-/

namespace Logwire

namespace Index

open Members

/-! ## The order of a listing -/

/-- One place stands before another: by its id, and under one id by its type, both by code points. -/
def Before (a b : DocumentKey) : Prop := a.id < b.id ∨ a.id = b.id ∧ a.type < b.type

/-- One place stands before another in a listing of the given order. -/
def Precedes (order : SortOrder) (a b : DocumentKey) : Prop :=
  match order with
  | .ascending => Before a b
  | .descending => Before b a

/-- The lexicographic position of a place. -/
def rankKey (k : DocumentKey) : String ×ₗ String := toLex (k.id, k.type)

theorem rankKey_injective : Function.Injective rankKey := by
  rintro ⟨t, i⟩ ⟨t', i'⟩ h
  obtain ⟨rfl, rfl⟩ := Prod.mk.inj (toLex_inj.mp h)
  rfl

theorem before_iff (a b : DocumentKey) : Before a b ↔ rankKey a < rankKey b := by
  rw [rankKey, rankKey, Prod.Lex.toLex_lt_toLex]
  rfl

theorem keyLe_iff (a b : DocumentKey) : keyLe a b = true ↔ rankKey a ≤ rankKey b := by
  rw [rankKey, rankKey, Prod.Lex.toLex_le_toLex]
  unfold keyLe
  by_cases hi : a.id = b.id
  · simp [hi]
  · simp [hi, le_iff_lt_or_eq]

theorem keyLe_trans (a b c : DocumentKey) (hab : keyLe a b = true) (hbc : keyLe b c = true) :
    keyLe a c = true := by
  rw [keyLe_iff] at *
  exact hab.trans hbc

theorem keyLe_total (a b : DocumentKey) : (keyLe a b || keyLe b a) = true := by
  rw [Bool.or_eq_true, keyLe_iff, keyLe_iff]
  exact le_total _ _

/-- In either order no two places precede each other. -/
theorem Precedes.asymm {order : SortOrder} {a b : DocumentKey} (h : Precedes order a b) :
    ¬ Precedes order b a := by
  cases order with
  | ascending => exact fun h' => lt_asymm ((before_iff _ _).mp h) ((before_iff _ _).mp h')
  | descending => exact fun h' => lt_asymm ((before_iff _ _).mp h) ((before_iff _ _).mp h')

/-! ## Listings -/

/-- The hits are the whole listing of a type, or of all types when it is empty: every document with
its place, in strict order. -/
structure IsListing (x : Index) (type : String) (order : SortOrder) (hits : List Hit) : Prop where
  ordered : hits.Pairwise fun a b => Precedes order a.key b.key
  mem_iff : ∀ h, h ∈ hits ↔ x.get h.key = .ok h.document ∧ (type = "" ∨ h.key.type = type)

namespace IsListing

variable {x y : Index} {type : String} {order : SortOrder} {hits hits' : List Hit}

theorem nodup (h : IsListing x type order hits) : hits.Nodup := by
  refine h.ordered.imp fun {a b} hab => ?_
  rintro rfl
  exact hab.asymm hab

/-- What is found at each place determines the listing. -/
theorem unique (h : IsListing x type order hits) (h' : IsListing y type order hits')
    (hget : ∀ k, x.get k = y.get k) : hits = hits' := by
  have hmem : ∀ hit, hit ∈ hits ↔ hit ∈ hits' := fun hit => by rw [h.mem_iff, h'.mem_iff, hget]
  have hperm : hits.Perm hits' := (List.perm_ext_iff_of_nodup h.nodup h'.nodup).mpr hmem
  exact hperm.eq_of_pairwise (fun _ _ _ _ hab hba => absurd hba hab.asymm) h.ordered h'.ordered

/-- The other order shows the same hits from the last to the first. -/
theorem reverse (h : IsListing x type .ascending hits) : IsListing x type .descending hits.reverse :=
  ⟨List.pairwise_reverse.mpr h.ordered, fun hit => by rw [List.mem_reverse, h.mem_iff]⟩

end IsListing

theorem get_eq_ok_iff {x : Index} {k : DocumentKey} {d : Document} :
    x.get k = .ok d ↔ x.documentAt? k = some d := by
  unfold get
  cases x.documentAt? k <;> simp

/-- What matches is listed in order. -/
theorem Holds.isListing_sorted {x : Index} {posts : DocumentKey → List Document} (h : Holds x posts)
    (type : String) (order : SortOrder) :
    IsListing x type order (sorted order (x.matching type)) := by
  have hperm : (sorted .ascending (x.matching type)).Perm (x.matching type) :=
    List.mergeSort_perm _ _
  have hascending : IsListing x type .ascending (sorted .ascending (x.matching type)) := by
    constructor
    · have hle : (sorted .ascending (x.matching type)).Pairwise fun a b => keyLe a.key b.key = true :=
        List.pairwise_mergeSort (fun a b c => keyLe_trans a.key b.key c.key)
          (fun a b => keyLe_total a.key b.key) _
      -- no place is listed twice, so the order is strict
      have hne : (sorted .ascending (x.matching type)).Pairwise fun a b => a.key ≠ b.key :=
        List.pairwise_map.mp ((hperm.map Hit.key).nodup_iff.mpr (h.nodup_matching type))
      exact (hle.and hne).imp fun hab => (before_iff _ _).mpr
        (lt_of_le_of_ne ((keyLe_iff _ _).mp hab.1) (rankKey_injective.ne hab.2))
    · intro hit
      rw [hperm.mem_iff, h.mem_matching_iff, get_eq_ok_iff]
  cases order with
  | ascending => exact hascending
  | descending => exact hascending.reverse

/-! ## Windows -/

section Windows

variable {α : Type}

/-- The items of a list with a rank from `start` on and before `stop`. -/
def ranked (xs : List α) (start stop : Int) : List α :=
  (xs.zipIdx.filter fun item => start ≤ item.2 ∧ item.2 < stop).map Prod.fst

/-- The rank that a bound means: a negative one counts from the end. -/
def rankOf (total : Nat) (bound : Int) : Int := if bound < 0 then bound + total else bound

/-- The items of a span of ranks are a window, whatever the first rank is. -/
theorem ranked_zipIdx (xs : List α) (i : Nat) (start stop : Int) :
    ((xs.zipIdx i).filter fun item => start ≤ item.2 ∧ item.2 < stop).map Prod.fst =
      (xs.drop (start - i).toNat).take ((stop - i).toNat - (start - i).toNat) := by
  induction xs generalizing i with
  | nil => simp
  | cons a xs ih =>
    rw [List.zipIdx_cons, List.filter_cons]
    have hstart : (start - (i + 1 : Nat)).toNat = (start - i).toNat - 1 := by omega
    have hstop : (stop - (i + 1 : Nat)).toNat = (stop - i).toNat - 1 := by omega
    have ih := ih (i + 1)
    rw [hstart, hstop] at ih
    by_cases hi : start ≤ i
    · have hzero : (start - i).toNat = 0 := by omega
      rw [hzero] at ih ⊢
      by_cases hi' : (i : Int) < stop
      · -- the item is in the window
        obtain ⟨n, hn⟩ : ∃ n, (stop - i).toNat = n + 1 := ⟨(stop - i).toNat - 1, by omega⟩
        rw [hn] at ih ⊢
        simpa [hi, hi'] using ih
      · have hzero' : (stop - i).toNat = 0 := by omega
        rw [hzero'] at ih ⊢
        simpa [hi'] using ih
    · obtain ⟨n, hn⟩ : ∃ n, (start - i).toNat = n + 1 := ⟨(start - i).toNat - 1, by omega⟩
      rw [hn] at ih ⊢
      have hcount : (stop - i).toNat - 1 - (n + 1 - 1) = (stop - i).toNat - (n + 1) := by omega
      rw [hcount] at ih
      simpa [hi] using ih

theorem ranked_eq (xs : List α) (start stop : Int) :
    ranked xs start stop = (xs.drop start.toNat).take (stop.toNat - start.toNat) := by
  have h := ranked_zipIdx xs 0 start stop
  simpa only [ranked, Int.natCast_zero, Int.sub_zero] using h

/-- A span shows nothing if it is empty, or ends before the items or begins behind them. -/
theorem ranked_eq_nil_iff (xs : List α) (start stop : Int) :
    ranked xs start stop = [] ↔ stop ≤ max start 0 ∨ (xs.length : Int) ≤ start ∨ xs = [] := by
  rw [ranked_eq, List.take_eq_nil_iff, List.drop_eq_nil_iff, ← List.length_eq_zero_iff]
  omega

/-- A bound is a rank, counted from the end where it is negative, within the listing. -/
theorem clampBound_eq (total : Nat) (bound : Int) :
    clampBound total bound = min (rankOf total bound).toNat total := by
  unfold clampBound rankOf
  split <;> omega

/-- A window shows the ranks that its bounds mean. -/
theorem window_eq_ranked (xs : List α) (start stop : Int) :
    window xs start stop = ranked xs (rankOf xs.length start) (rankOf xs.length stop) := by
  have hdrop : ∀ n, xs.drop (min n xs.length) = xs.drop n := fun n => by
    rw [List.drop_eq_drop_iff]
    omega
  rw [ranked_eq]
  simp only [window, clampBound_eq, hdrop]
  rw [List.take_eq_take_iff, List.length_drop]
  omega

end Windows

/-! ## Pages of any numbers -/

/-- A first page of negative size, or a page two or more in front of the first: its window ends
before the first rank. -/
def EndsBefore (p : Pagination) : Prop := p.page = 0 ∧ p.perPage < 0 ∨ p.page ≤ -2 ∧ 0 < p.perPage

/-- The window ends before the first rank, but counted from the end its bounds meet items. -/
def WrapsAround (total : Nat) (p : Pagination) : Prop :=
  EndsBefore p ∧ 0 < (p.page + 1) * p.perPage + total

instance (p : Pagination) : Decidable (EndsBefore p) := inferInstanceAs (Decidable (_ ∨ _))

instance (total : Nat) (p : Pagination) : Decidable (WrapsAround total p) :=
  inferInstanceAs (Decidable (_ ∧ _))

variable {p : Pagination}

theorem endIndex_eq (p : Pagination) : p.endIndex = (p.page + 1) * p.perPage := by
  unfold Pagination.endIndex Pagination.startIndex
  ring

theorem endIndex_eq_add (p : Pagination) : p.endIndex = p.startIndex + p.perPage := rfl

/-- A page that ends before the listing has bounds that count from its end. -/
theorem EndsBefore.bounds (h : EndsBefore p) :
    p.endIndex < 0 ∧ (p.startIndex = 0 ∨ p.startIndex < p.endIndex) := by
  have hend := endIndex_eq p
  have hadd := endIndex_eq_add p
  rcases h with ⟨hpage, hper⟩ | ⟨hpage, hper⟩
  · rw [hpage] at hend
    omega
  · have : (p.page + 1) * p.perPage < 0 := mul_neg_of_neg_of_pos (by omega) hper
    omega

/-- Any other page has ordinary bounds, or shows nothing whichever way they are read. -/
theorem bounds_of_not_endsBefore (h : ¬ EndsBefore p) :
    0 ≤ p.startIndex ∧ 0 ≤ p.endIndex ∨
      p.startIndex < 0 ∧ (p.endIndex = 0 ∨ p.endIndex < p.startIndex) := by
  have hend := endIndex_eq p
  have hadd := endIndex_eq_add p
  have hstart : p.startIndex = p.page * p.perPage := rfl
  unfold EndsBefore at h
  rcases lt_trichotomy p.perPage 0 with hper | hper | hper
  · rcases lt_trichotomy p.page 0 with hpage | hpage | hpage
    · have h1 : 0 < p.page * p.perPage := mul_pos_of_neg_of_neg hpage hper
      have h2 : 0 ≤ (p.page + 1) * p.perPage := mul_nonneg_of_nonpos_of_nonpos (by omega) hper.le
      omega
    · omega
    · have h1 : p.page * p.perPage < 0 := mul_neg_of_pos_of_neg hpage hper
      omega
  · rw [hper, mul_zero] at hstart hend
    omega
  · by_cases hpage : 0 ≤ p.page
    · have h1 : 0 ≤ p.page * p.perPage := mul_nonneg hpage hper.le
      omega
    · obtain hpage : p.page = -1 := by omega
      rw [hpage] at hend
      omega

/-- A page is the window of its ranks unless it wraps around. -/
theorem window_eq_iff {α : Type} (xs : List α) (p : Pagination) :
    window xs p.startIndex p.endIndex = ranked xs p.startIndex p.endIndex ↔
      ¬ WrapsAround xs.length p := by
  rw [window_eq_ranked]
  unfold WrapsAround
  rw [← endIndex_eq]
  by_cases hb : EndsBefore p
  · -- the window of ranks is empty, so the page has to be
    obtain ⟨hstop, hstart⟩ := hb.bounds
    have hnil : ranked xs p.startIndex p.endIndex = [] :=
      (ranked_eq_nil_iff _ _ _).mpr (.inl (by omega))
    rw [hnil, ranked_eq_nil_iff, ← List.length_eq_zero_iff]
    simp only [hb, true_and, rankOf, if_pos hstop]
    split <;> omega
  · simp only [hb, false_and, not_false_eq_true, iff_true]
    rcases bounds_of_not_endsBefore hb with ⟨hstart, hstop⟩ | ⟨hstart, hstop⟩
    · rw [rankOf, rankOf, if_neg (by omega), if_neg (by omega)]
    · have hnil : ranked xs p.startIndex p.endIndex = [] :=
        (ranked_eq_nil_iff _ _ _).mpr (.inl (by omega))
      rw [hnil, ranked_eq_nil_iff, rankOf, rankOf, if_pos hstart]
      split <;> omega

/-- A page shows no more hits than it is asked for. -/
theorem length_ranked_le {α : Type} (xs : List α) (p : Pagination) :
    ((ranked xs p.startIndex p.endIndex).length : Int) ≤ max p.perPage 0 := by
  have hadd := endIndex_eq_add p
  rw [ranked_eq, List.length_take]
  omega

/-- What a page shows of the listing of a type, whatever its numbers. -/
structure Windowed (x : Index) (type : String) (p : Pagination) (hits : List Hit) : Prop where
  listing : IsListing x type p.order hits
  total : (x.list type p).total = hits.length
  /-- The page shows the ranks between its bounds, negative ones counted from the end. -/
  bounds : (x.list type p).hits =
    ranked hits (rankOf hits.length p.startIndex) (rankOf hits.length p.endIndex)
  /-- These are the ranks of the page and no others, unless it wraps around. -/
  window : (x.list type p).hits = ranked hits (p.page * p.perPage) ((p.page + 1) * p.perPage) ↔
    ¬ WrapsAround hits.length p
  /-- Then the page is no longer than its size, and empty before the first page. -/
  length_le : ¬ WrapsAround hits.length p → ((x.list type p).hits.length : Int) ≤ max p.perPage 0
  negative : ¬ WrapsAround hits.length p → p.page < 0 → (x.list type p).hits = []

/-- The pages of an index are windows of its sorted hits. -/
theorem Holds.windowed {x : Index} {posts : DocumentKey → List Document} (h : Holds x posts)
    (type : String) (p : Pagination) :
    Windowed x type p (sorted p.order (x.matching type)) := by
  have hwindow := window_eq_iff (sorted p.order (x.matching type)) p
  have hstart : p.startIndex = p.page * p.perPage := rfl
  have hshown : ¬ WrapsAround (sorted p.order (x.matching type)).length p →
      (x.list type p).hits = ranked (sorted p.order (x.matching type)) p.startIndex p.endIndex :=
    hwindow.mpr
  refine ⟨h.isListing_sorted type p.order, rfl, window_eq_ranked _ _ _, ?_, fun hw => ?_,
    fun hw hpage => ?_⟩
  · rw [← endIndex_eq, ← hstart]
    exact hwindow
  · rw [hshown hw]
    exact length_ranked_le _ _
  · rw [hshown hw, ranked_eq_nil_iff]
    have hadd := endIndex_eq_add p
    have hend := endIndex_eq p
    rcases le_or_gt p.perPage 0 with hper | hper
    · omega
    · have : (p.page + 1) * p.perPage ≤ 0 := mul_nonpos_of_nonpos_of_nonneg (by omega) hper.le
      omega

/-- The numbers of a pagination are read off the arguments of a query. -/
theorem ofQuery_eq_ok {q : Pagination.Query} {default : Pagination}
    (hq : Pagination.ofQuery q default = .ok p) :
    Pagination.integerArgument q "page" default.page = .ok p.page ∧
      Pagination.integerArgument q "perPage" default.perPage = .ok p.perPage ∧
      Pagination.orderArgument q default.order = .ok p.order := by
  unfold Pagination.ofQuery at hq
  cases hper : Pagination.integerArgument q "perPage" default.perPage with
  | error e => rw [hper] at hq; cases hq
  | ok perPage =>
    cases hpage : Pagination.integerArgument q "page" default.page with
    | error e => rw [hper, hpage] at hq; cases hq
    | ok page =>
      cases horder : Pagination.orderArgument q default.order with
      | error e => rw [hper, hpage, horder] at hq; cases hq
      | ok order =>
        rw [hper, hpage, horder] at hq
        obtain rfl := Except.ok.inj hq
        exact ⟨rfl, rfl, rfl⟩

/-- Documents of two types, two of them under one id. -/
def shelf : List Call :=
  [.post 0 "b" "2" (.obj []), .post 0 "a" "1" (.obj [("n", .int 1)]), .post 0 "b" "1" (.obj []),
    .create]

theorem length_listing_shelf {hits : List Hit}
    (h : ((after { name := "logs" } shelf).list "" p).total = hits.length) : hits.length = 3 := by
  rw [← h, list, length_sorted]
  rfl

/-- **The page of any query** is the window of its ranks in the order asked for, exactly if it does
not wrap around. -/
theorem windowed_ofQuery (name : String) (past : List Call) (type : String) {q : Pagination.Query}
    {default p : Pagination} (hq : Pagination.ofQuery q default = .ok p) :
    Pagination.integerArgument q "page" default.page = .ok p.page ∧
      Pagination.integerArgument q "perPage" default.perPage = .ok p.perPage ∧
      Pagination.orderArgument q default.order = .ok p.order ∧
      ∃ hits, Windowed (after { name := name } past) type p hits := by
  obtain ⟨hpage, hper, horder⟩ := ofQuery_eq_ok hq
  exact ⟨hpage, hper, horder, _, (tracks_after name past).holds.windowed type p⟩

/-- A first page of size minus one shows all hits but the last. -/
theorem windowed_ofQuery_shelf :
    Pagination.ofQuery [("perPage", ["-1"])] {} = .ok { perPage := -1 } ∧ ∃ hits,
      Windowed (after { name := "logs" } shelf) "" { perPage := -1 } hits ∧
      ((after { name := "logs" } shelf).list "" { perPage := -1 }).hits.length = 2 ∧
      ((after { name := "logs" } shelf).list "" { perPage := -1 }).hits ≠ ranked hits 0 (-1) := by
  have hq : Pagination.ofQuery [("perPage", ["-1"])] {} = .ok { perPage := -1 } := by decide
  obtain ⟨-, -, -, hits, hw⟩ := windowed_ofQuery "logs" shelf "" hq
  have hlength := length_listing_shelf hw.total
  have hwraps : WrapsAround hits.length { perPage := -1 } := by
    rw [hlength]
    decide
  refine ⟨hq, hits, hw, ?_, fun he => hw.window.mp he hwraps⟩
  rw [hw.bounds, ranked_eq, List.length_take, List.length_drop, hlength]
  decide

/-! ## Page after page -/

/-- A page of the listing of a type, of the size and in the order of `p`. -/
def pageOf (x : Index) (type : String) (p : Pagination) (m : Nat) : Listing :=
  x.list type { p with page := m }

/-- Read from the first one, `n` pages have hits and make up the listing; the others are empty. -/
structure Paged (x : Index) (type : String) (p : Pagination) (n : Nat) (hits : List Hit) :
    Prop where
  listing : IsListing x type p.order hits
  concat : (List.range n).flatMap (fun m => (x.pageOf type p m).hits) = hits
  filled : ∀ m < n, (x.pageOf type p m).hits ≠ []
  empty : ∀ m, n ≤ m → (x.pageOf type p m).hits = []
  full : ∀ m, m + 1 < n → ((x.pageOf type p m).hits.length : Int) = p.perPage
  total : ∀ m, (x.pageOf type p m).total = hits.length

/-- Windows of one size side by side are the beginning of the row. -/
theorem flatMap_range_windows {α : Type} (xs : List α) (size n : Nat) :
    (List.range n).flatMap (fun m => (xs.drop (m * size)).take size) = xs.take (n * size) := by
  induction n with
  | zero => simp
  | succ n ih =>
    rw [List.range_succ, List.flatMap_append, ih, Nat.succ_mul, List.take_add]
    simp

/-- A page is a window of the size of a page. -/
theorem window_page {α : Type} (xs : List α) {size : Nat} (hsize : p.perPage = size) {m : Nat}
    (hm : p.page = m) :
    window xs p.startIndex p.endIndex = (xs.drop (m * size)).take size := by
  have hstart : p.startIndex = (m * size : Nat) := by
    rw [Pagination.startIndex, hm, hsize, Int.natCast_mul]
  have hbefore : ¬ EndsBefore p := by
    unfold EndsBefore
    omega
  rw [(window_eq_iff xs p).mpr fun hw => hbefore hw.1, ranked_eq, endIndex_eq_add, hstart, hsize]
  congr 1
  omega

/-- The pages of an index are as many as its hits need. -/
theorem Holds.paged {x : Index} {posts : DocumentKey → List Document} (h : Holds x posts)
    (type : String) (hp : 1 ≤ p.perPage) (n : Nat)
    (hn : ∀ m : Nat, m < n ↔ m * p.perPage.toNat < (x.matching type).length) :
    Paged x type p n (sorted p.order (x.matching type)) := by
  have hlength := length_sorted p.order (x.matching type)
  have hsize : p.perPage = p.perPage.toNat := by omega
  have hpage : ∀ m, (x.pageOf type p m).hits =
      ((sorted p.order (x.matching type)).drop (m * p.perPage.toNat)).take p.perPage.toNat :=
    fun m => window_page (p := { p with page := m }) _ hsize rfl
  have hlen : ∀ m, (x.pageOf type p m).hits.length =
      min p.perPage.toNat ((x.matching type).length - m * p.perPage.toNat) := fun m => by
    rw [hpage, List.length_take, List.length_drop, hlength]
  refine ⟨h.isListing_sorted type p.order, ?_, fun m hm => ?_, fun m hm => ?_, fun m hm => ?_,
    fun m => rfl⟩
  · have hcover := (hn n).not.mp (lt_irrefl n)
    simp only [hpage, flatMap_range_windows]
    exact List.take_of_length_le (by omega)
  · have := (hn m).mp hm
    rw [← List.length_pos_iff, hlen]
    omega
  · have := (hn m).not.mp (Nat.not_lt.mpr hm)
    rw [← List.length_eq_zero_iff, hlen]
    omega
  · have hnext := (hn (m + 1)).mp hm
    rw [Nat.succ_mul] at hnext
    rw [hlen]
    omega

end Index

end Logwire
