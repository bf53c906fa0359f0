import Voices.Semantics.Rounding
import Voices.Semantics.TextForm
import Voices.VoiceServer.Proto

/-!
# The pages of the servers

`db.rs` wraps a query so that every row comes with the number of all rows. The rows
are in the order in which the database returns them, which is taken to be the same
for all pages. Integers of 64 bits wrap around, as in a release build.
-/

namespace Voices.Registry

open Semantics VoiceServer

structure ServerDb where
  id : Uuid
  name : String
  deriving DecidableEq

/-- `COUNT` is a `BIGINT`. -/
structure ServersTable where
  rows : List ServerDb
  length_lt : rows.length < 2 ^ 63

/-- `Server` of `voices_channels_models`. -/
structure Server where
  id : Uuid
  name : String

structure ServerInfo where
  serverId : String
  name : String
  deriving DecidableEq

structure GetServersRequest where
  perPage : Option Int
  page : Option Int

def ServerDb.toServer (value : ServerDb) : Server := { id := value.id, name := value.name }

def Server.toInfo (form : TextForm Uuid) (value : Server) : ServerInfo :=
  { serverId := form.display value.id, name := value.name }

def i64 (x : Int) : Int := x.bmod (2 ^ 64)

def f64 (q : ℚ) : ℚ := Rounding.rounded 53 q

/-- `as i64` stops at the largest and the smallest value. -/
def asI64 (x : Int) : Int := max (-2 ^ 63) (min x (2 ^ 63 - 1))

structure Paginated (α : Type) where
  query : List α
  page : Int
  perPage : Int
  offset : Int

def defaultPerPage : Int := 10

def paginate {α : Type} (query : List α) (page : Int) : Paginated α :=
  { query, page, perPage := defaultPerPage, offset := i64 (i64 (page - 1) * defaultPerPage) }

namespace Paginated

variable {α : Type}

/-- `per_page` -/
def withPerPage (p : Paginated α) (perPage : Int) : Paginated α :=
  { p with perPage, offset := i64 (i64 (p.page - 1) * perPage) }

/-- `SELECT *, COUNT(*) OVER () FROM (query) t LIMIT per_page OFFSET offset`, which fails if one of
the two is negative. -/
def load (p : Paginated α) : Option (List (α × Int)) :=
  if p.perPage < 0 ∨ p.offset < 0 then none
  else some (((p.query.drop p.offset.toNat).take p.perPage.toNat).map fun row => (row, (p.query.length : Int)))

/-- The quotient of 0 and 0 is not a number, which as an integer is 0. -/
def totalPages (total perPage : Int) : Int := asI64 ⌈f64 (f64 total / f64 perPage)⌉

def loadAndCountPages (p : Paginated α) : Option (List α × Int) :=
  p.load.map fun results =>
    let total := (results.head?.map Prod.snd).getD 0
    (results.map Prod.fst, totalPages total p.perPage)

end Paginated

/-- `ChannelsImpl::get_servers` -/
def ServersTable.getServers (db : ServersTable) (page perPage : Int) : Option (List Server × Int) :=
  ((paginate db.rows page).withPerPage perPage).loadAndCountPages.map fun (servers, pages) =>
    (servers.map ServerDb.toServer, pages)

/-- `ChannelsGrpc::get_servers` -/
def getServers (form : TextForm Uuid) (db : ServersTable) (req : GetServersRequest) :
    Option (List ServerInfo × Int) :=
  (db.getServers (req.page.getD 1) (min (req.perPage.getD 10) 100)).map fun (servers, pages) =>
    (servers.map (Server.toInfo form), pages)

/-! ### One page -/

theorem i64_of_lt {x : Int} (hNonneg : 0 ≤ x) (hLt : x < 2 ^ 63) : i64 x = x := by
  rw [i64, Int.bmod_eq_of_le] <;> omega

theorem take_pages {α : Type} (rows : List α) (perPage k : Nat) :
    ((List.range k).flatMap fun i => (rows.drop (i * perPage)).take perPage) = rows.take (k * perPage) := by
  induction k with
  | zero => simp
  | succ k ih =>
    rw [List.range_succ, List.flatMap_append, ih, List.flatMap_singleton, Nat.succ_mul, List.take_add]

def serverInfo (form : TextForm Uuid) (row : ServerDb) : ServerInfo := row.toServer.toInfo form

variable {form : TextForm Uuid} {db : ServersTable}

/-- The answer for the page after `k` pages: the total is that of the first row, if there is one. -/
theorem getServers_eq {perPage k : Nat} (hPerPage : 1 ≤ perPage) (hAtMost : perPage ≤ 100)
    (hFits : k * perPage < 2 ^ 63) :
    getServers form db ⟨some perPage, some (k + 1)⟩ =
      some (((db.rows.drop (k * perPage)).take perPage).map (serverInfo form),
        Paginated.totalPages (if k * perPage < db.rows.length then db.rows.length else 0) perPage) := by
  have hPage : (k : Int) < 2 ^ 63 := by
    have := Nat.le_mul_of_pos_right k hPerPage
    omega
  have hMin : min (perPage : Int) 100 = perPage := by omega
  have hOffset : i64 (i64 ((k : Int) + 1 - 1) * perPage) = ((k * perPage : Nat) : Int) := by
    rw [Int.add_sub_cancel, i64_of_lt (by omega) hPage, ← Int.natCast_mul, i64_of_lt (by omega) (by omega)]
  have hTotal : (((((db.rows.drop (k * perPage)).take perPage).map
      fun row => (row, (db.rows.length : Int))).head?.map Prod.snd).getD 0) =
        if k * perPage < db.rows.length then (db.rows.length : Int) else 0 := by
    split
    · rename_i hLt
      rw [List.drop_eq_getElem_cons hLt, List.take_cons hPerPage]
      rfl
    · rename_i hEnd
      rw [List.drop_eq_nil_of_le (Nat.le_of_not_lt hEnd), List.take_nil]
      rfl
  have hLoad : ((paginate db.rows (k + 1)).withPerPage perPage).load =
      some (((db.rows.drop (k * perPage)).take perPage).map fun row => (row, (db.rows.length : Int))) := by
    simp only [Paginated.load, Paginated.withPerPage, paginate, hOffset]
    rw [if_neg (by omega), Int.toNat_natCast, Int.toNat_natCast]
  simp only [getServers, Option.getD_some, hMin, ServersTable.getServers, Paginated.loadAndCountPages, hLoad,
    Option.map_some, hTotal, List.map_map]
  rfl

/-- The quotient in floating point stays within the two integers around the exact one. -/
def RoundsRight (total perPage : Nat) : Prop :=
  ((⌈(total / perPage : ℚ)⌉ - 1 : ℤ) : ℚ) < f64 (f64 total / f64 perPage) ∧
    (f64 (f64 total / f64 perPage) ≤ ⌈(total / perPage : ℚ)⌉ ∨ ⌈(total / perPage : ℚ)⌉ = 2 ^ 63 - 1)

theorem roundsRight_of_lt {total perPage : Nat} (hPerPage : 1 ≤ perPage) (hAtMost : perPage ≤ 100)
    (hLt : total < 2 ^ 53) : RoundsRight total perPage := by
  have hTotal : f64 total = total := Rounding.rounded_natCast hLt
  have hDivisor : f64 perPage = perPage := Rounding.rounded_natCast (by omega)
  obtain ⟨hBelow, hAbove⟩ := Rounding.rounded_div hPerPage hLt
  rw [RoundsRight, hTotal, hDivisor]
  exact ⟨hBelow, .inl hAbove⟩

theorem totalPages_zero (perPage : Int) : Paginated.totalPages 0 perPage = 0 := by
  have hZero : f64 0 = 0 := by simp [f64, Rounding.rounded, Rounding.roundEven]
  rw [Paginated.totalPages, Int.cast_zero, hZero, zero_div, hZero, Int.ceil_zero]
  rfl

theorem totalPages_eq_iff {total perPage : Nat} (hPerPage : 1 ≤ perPage) (hLt : total < 2 ^ 63) :
    Paginated.totalPages total perPage = ⌈(total / perPage : ℚ)⌉ ↔ RoundsRight total perPage := by
  have hLe : ⌈(total / perPage : ℚ)⌉ ≤ (total : Int) := by
    refine Int.ceil_le.mpr (div_le_self (by positivity) ?_)
    exact_mod_cast hPerPage
  have hNonneg : 0 ≤ ⌈(total / perPage : ℚ)⌉ := Int.ceil_nonneg (by positivity)
  rw [Paginated.totalPages, RoundsRight, Int.cast_natCast, Int.cast_natCast, ← Int.lt_ceil, ← Int.ceil_le]
  generalize ⌈(total / perPage : ℚ)⌉ = exact, ⌈f64 (f64 total / f64 perPage)⌉ = pages at hLe hNonneg ⊢
  rw [asI64]
  omega

/-! ### All pages -/

/-- The answer for a page has the number of all pages, and pages 1 to that number have every server
once. -/
def Covers (form : TextForm Uuid) (db : ServersTable) (page perPage : Int) : Prop :=
  ∃ info pages, getServers form db ⟨some perPage, some page⟩ = some (info, pages) ∧
    pages = ⌈(db.rows.length / perPage : ℚ)⌉ ∧
    ((List.range pages.toNat).flatMap fun (i : Nat) =>
      (getServers form db ⟨some perPage, some (i + 1)⟩).elim [] Prod.fst) = db.rows.map (serverInfo form)

/-- All servers are on the pages up to the one that ends with or after the last. -/
theorem flatMap_pages {perPage pages : Nat} (hPerPage : 1 ≤ perPage) (hAtMost : perPage ≤ 100)
    (hPages : (pages : ℤ) = ⌈(db.rows.length / perPage : ℚ)⌉) :
    ((List.range pages).flatMap fun (i : Nat) =>
      (getServers form db ⟨some perPage, some (i + 1)⟩).elim [] Prod.fst) = db.rows.map (serverInfo form) := by
  have hPos : (0 : ℚ) < perPage := by exact_mod_cast hPerPage
  have hEnough : db.rows.length ≤ pages * perPage := by
    have hCeil : (db.rows.length / perPage : ℚ) ≤ (pages : ℤ) := hPages ▸ Int.le_ceil _
    rw [Int.cast_natCast, div_le_iff₀ hPos] at hCeil
    exact_mod_cast hCeil
  have hStarted : ∀ i < pages, i * perPage < db.rows.length := by
    intro i hLt
    have hBefore : (i : ℚ) < db.rows.length / perPage := by
      have hInt : (i : ℤ) < ⌈(db.rows.length / perPage : ℚ)⌉ := by omega
      exact_mod_cast Int.lt_ceil.mp hInt
    rw [lt_div_iff₀ hPos] at hBefore
    exact_mod_cast hBefore
  have hEach : ∀ i ∈ List.range pages,
      (getServers form db ⟨some perPage, some (i + 1)⟩).elim [] Prod.fst =
        ((db.rows.drop (i * perPage)).take perPage).map (serverInfo form) := by
    intro i hMem
    have hLt := hStarted i (List.mem_range.mp hMem)
    rw [getServers_eq hPerPage hAtMost (hLt.trans db.length_lt)]
    rfl
  rw [List.flatMap_congr hEach, ← List.map_flatMap, take_pages, List.take_of_length_le hEnough]

/-- The answer is right exactly if there are no servers, or the page is not past the last one and
the division does not go wrong, which takes 2^53 servers at least. -/
theorem pagination_covers_iff {page perPage : Int} (hPage : 1 ≤ page) (hPerPage : 1 ≤ perPage)
    (hAtMost : perPage ≤ 100) (hFits : (page - 1) * perPage < 2 ^ 63) :
    (Covers form db page perPage ↔
        db.rows = [] ∨ ((page - 1) * perPage < db.rows.length ∧ RoundsRight db.rows.length perPage.toNat)) ∧
      (db.rows.length < 2 ^ 53 → RoundsRight db.rows.length perPage.toNat) := by
  obtain ⟨k, hK⟩ := Int.eq_ofNat_of_zero_le (show 0 ≤ page - 1 by omega)
  obtain ⟨p, rfl⟩ := Int.eq_ofNat_of_zero_le (show 0 ≤ perPage by omega)
  have hPageEq : page = k + 1 := by omega
  subst hPageEq
  have hP : 1 ≤ p := by omega
  have hOffset : ((k : Int) + 1 - 1) * p = ((k * p : Nat) : Int) := by
    rw [Int.add_sub_cancel, Int.natCast_mul]
  rw [hOffset] at hFits ⊢
  have hAnswer : getServers form db ⟨some (p : Int), some (k + 1)⟩ = _ :=
    getServers_eq hP (by omega) (by omega)
  have hCovers : Covers form db (k + 1) p ↔
      Paginated.totalPages (if k * p < db.rows.length then db.rows.length else 0) p =
        ⌈(db.rows.length / p : ℚ)⌉ := by
    constructor
    · rintro ⟨info, pages, hSome, hPages, _⟩
      cases hAnswer.symm.trans hSome
      exact hPages
    · intro hPages
      refine ⟨_, _, hAnswer, hPages, flatMap_pages hP (by omega) ?_⟩
      rw [hPages]
      exact Int.toNat_of_nonneg (Int.ceil_nonneg (by positivity))
  refine ⟨hCovers.trans ?_, roundsRight_of_lt hP (by omega)⟩
  by_cases hStarted : k * p < db.rows.length
  · have hNonempty : db.rows ≠ [] := List.ne_nil_of_length_pos (by omega)
    have hInt : ((k * p : Nat) : Int) < db.rows.length := by exact_mod_cast hStarted
    rw [if_pos hStarted, totalPages_eq_iff hP db.length_lt]
    exact ⟨fun hRounds => .inr ⟨hInt, hRounds⟩, fun h => (h.resolve_left hNonempty).2⟩
  · have hInt : ¬ ((k * p : Nat) : Int) < db.rows.length := by exact_mod_cast hStarted
    rw [if_neg hStarted, totalPages_zero]
    constructor
    · intro hNone
      refine .inl (List.eq_nil_of_length_eq_zero (Nat.eq_zero_of_not_pos fun hSome => ?_))
      have hPos : (0 : ℚ) < db.rows.length / p := by positivity
      exact absurd hNone (Int.ceil_pos.mpr hPos).ne
    · rintro (hEmpty | ⟨hBefore, _⟩)
      · simp [hEmpty]
      · exact absurd hBefore hInt

theorem ofNat_toNat_id (id : Uuid) : BitVec.ofNat 128 id.toNat = id :=
  (BitVec.ofNat_toNat 128 id).trans id.setWidth_eq

def idTally : TextForm Uuid := .tally BitVec.toNat (BitVec.ofNat 128) ofNat_toNat_id

def oneServer : ServersTable := { rows := [⟨1, "a"⟩], length_lt := by decide }

def fiveServers : ServersTable :=
  { rows := [⟨1, "a"⟩, ⟨2, "b"⟩, ⟨3, "c"⟩, ⟨4, "d"⟩, ⟨5, "e"⟩], length_lt := by decide }

/-- The last of three pages has a single row. -/
theorem pagination_covers_iff_last :
    getServers idTally fiveServers ⟨some 2, some 3⟩ = some ([⟨idTally.display 5, "e"⟩], 3) ∧
      Covers idTally fiveServers 3 2 := by
  have hIff : (Covers idTally fiveServers 3 2 ↔ fiveServers.rows = [] ∨
        ((3 - 1) * 2 < (fiveServers.rows.length : Int) ∧
          RoundsRight fiveServers.rows.length (2 : Int).toNat)) ∧
      (fiveServers.rows.length < 2 ^ 53 → RoundsRight fiveServers.rows.length (2 : Int).toNat) :=
    pagination_covers_iff (by decide) (by decide) (by decide) (by decide)
  have hRounds : RoundsRight fiveServers.rows.length (2 : Int).toNat := hIff.2 (by decide)
  exact ⟨by decide +kernel, hIff.1.mpr (.inr ⟨by decide, hRounds⟩)⟩

/-- On the page after the last one there are no pages at all. -/
theorem not_pagination_covers :
    ¬ ∀ (form : TextForm Uuid) (db : ServersTable) (page perPage : Int), 1 ≤ page → 1 ≤ perPage →
      perPage ≤ 100 → (page - 1) * perPage < 2 ^ 63 → Covers form db page perPage := by
  intro hAll
  obtain ⟨info, pages, hAnswer, hPages, _⟩ :=
    hAll idTally oneServer 2 10 (by decide) (by decide) (by decide) (by decide)
  have hNone : getServers idTally oneServer ⟨some 10, some 2⟩ = some ([], 0) := by decide +kernel
  cases hAnswer.symm.trans hNone
  revert hPages
  decide +kernel

end Voices.Registry
