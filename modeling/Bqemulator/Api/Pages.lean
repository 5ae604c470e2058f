import Bqemulator.Api.Tabledata
import Bqemulator.Jobs.QueryJobs

/-!
# Reading a result page by page

A client that follows the page tokens reads the rest of the rows from where the last page ended. The
size of a page may change from call to call.
-/

namespace Bqemulator

open List

section Client

variable {T R E : Type}

/-- A client that reads page after page: the rows it got, and the token it would use next. -/
def readPages (ask : Option T → Nat → Except E (List R × Option T)) :
    List Nat → Option T → Except E (List R × Option T)
  | [], token => .ok ([], token)
  | size :: sizes, token =>
    (ask token size).bind fun
      | (rows, none) => .ok (rows, none)
      | (rows, some next) => (readPages ask sizes (some next)).map fun (rest, last) =>
        (rows ++ rest, last)

variable {ask : Option T → Nat → Except E (List R × Option T)} {rows : List R}

/-- Pages that begin where their token tells and are not empty give all rows in order. -/
theorem readPages_eq (o : Option T → Nat) (tokenOf : Nat → T)
    (ho : ∀ n, o (some (tokenOf n)) = n)
    (ha : ∀ t size, 0 < size → ∃ k, 0 < k ∧ ask t size =
      .ok ((rows.drop (o t)).take k,
        if o t + k < rows.length then some (tokenOf (o t + k)) else none))
    {s : List Nat} (hpo : ∀ size ∈ s, 0 < size) (t : Option T)
    (hl : rows.length - o t < s.length) :
    readPages ask s t = .ok (rows.drop (o t), none) := by
  induction s generalizing t with
  | nil => exact absurd hl (Nat.not_lt_zero _)
  | cons size s ih =>
    obtain ⟨hs, hpo⟩ := forall_mem_cons.1 hpo
    obtain ⟨k, hk, hp⟩ := ha t size hs
    rw [length_cons] at hl
    rw [readPages, hp]
    split_ifs with hmo
    · -- the rest begins where the page ends
      have hr := ih hpo (some (tokenOf (o t + k))) (by rw [ho]; omega)
      rw [ho, ← drop_drop] at hr
      simp only [Except.bind, hr, Except.map, take_append_drop]
    · have hal : (rows.drop (o t)).length ≤ k := by
        rw [length_drop]
        omega
      simp only [Except.bind, take_of_length_le hal]

end Client

variable {V Row : Type}

/-- A page of the result of a job. -/
def resultPages (w : JobWorld V) (projectId jobId : String) (token : Option Nat) (size : Nat) :
    Except DomainError (List (List V) × Option Nat) :=
  (getQueryResults w projectId jobId (token.getD 0) size).map fun page =>
    (page.rows, page.pageToken)

/-- A page of a table. -/
def tablePages (env : ListEnv Row) (cat : Catalog) (st : Storage Row) (id : TableId)
    (selectedFields : Option String) (token : Option String) (size : Nat) :
    Except DomainError (List Row × Option String) :=
  (listTabledata env cat st id { maxResults := size, pageToken := token, selectedFields }).map
    fun page => (page.rows, page.pageToken)

/-- A page that is not full is the last one. -/
theorem nextToken_eq (start k n : Nat) :
    (if start + min k (n - start) < n then some (toString (start + min k (n - start))) else none) =
      if start + k < n then some (toString (start + k)) else none := by
  by_cases h : start + k < n
  · rw [Nat.min_eq_left (by omega)]
  · rw [if_neg h, if_neg (by omega)]

section Table

variable {env : ListEnv Row} {cat : Catalog} {st : Storage Row} {id : TableId}
  {selectedFields : Option String} {m : TableMeta} {key : String × String} {stored : List Row}
  {projection : Row → Row} (hm : cat.getTable id = some m) (hkey : quotedTableRef id = .ok key)
  (hstored : st.get key = some stored)
  (hproject : env.project (parseSelectedFields selectedFields) = .ok projection)

include hm hkey hstored hproject

theorem tablePages_eq (t : Option String) (size : Nat) :
    let start := t.elim 0 fun t => (max 0 ((env.intOf t).getD 0)).toNat
    let k := min size 1000000
    tablePages env cat st id selectedFields t size =
      .ok (((stored.map projection).drop start).take k,
        if start + k < (stored.map projection).length then some (toString (start + k))
        else none) := by
  have hs : (max 0 (min (size : Int) 1000000)).toNat = min size 1000000 := by omega
  cases t <;> simp only [tablePages, listTabledata, hm, hkey, Except.bind, hstored, hproject,
    Except.map, hs, map_take, map_drop, length_take, length_drop, length_map, nextToken_eq] <;> rfl

/-- **Every row is read once** by a client that asks for pages of any sizes and follows their
tokens. -/
theorem pages_complete (hint : ∀ n : Nat, env.intOf (toString n) = some (n : Int))
    {w : JobWorld V} {jobId : String} {table : ArrowTable V}
    (hresult : w.result? jobId = some table) (projectId : String) {sizes : List Nat}
    (hpos : ∀ size ∈ sizes, 0 < size) :
    (table.rows.length < sizes.length →
      readPages (resultPages w projectId jobId) sizes none = .ok (table.rows, none)) ∧
    (stored.length < sizes.length →
      readPages (tablePages env cat st id selectedFields) sizes none =
        .ok (stored.map projection, none)) := by
  constructor
  · intro hl
    refine readPages_eq (fun t => t.getD 0) (fun n => n) (fun _ => rfl)
      (fun t size hs => ⟨size, hs, ?_⟩) hpos none hl
    simp only [resultPages, getQueryResults, hresult]
    rfl
  · intro hl
    refine readPages_eq _ toString (fun n => ?_) (fun t size hs =>
      ⟨min size 1000000, by omega, tablePages_eq hm hkey hstored hproject t size⟩) hpos none ?_
    · rw [Option.elim_some, hint]
      exact Int.toNat_natCast n
    · simpa using hl

end Table

theorem pages_complete_two :
    let w : JobWorld Nat :=
      ⟨⟨{}, ⟨[], .empty⟩⟩, Keyed.empty.put ⟨"job", ⟨[("x", "BIGINT")], [[1], [2]]⟩⟩⟩
    let e : ListEnv Nat :=
      ⟨fun t => some (Nat.ofDigitChars 10 t.toList 0), fun _ => .ok (· + 1)⟩
    let c : Catalog := { tables := [{ id := ⟨"p", "d", "t"⟩ }] }
    let st : Storage Nat := { tables := [(("p__d", "t"), [1, 2])] }
    readPages (resultPages w "p" "job") [1, 1, 7] none = .ok ([[1], [2]], none) ∧
      readPages (tablePages e c st ⟨"p", "d", "t"⟩ none) [1, 1, 7] none =
        .ok ([2, 3], none) := by
  intro w e c st
  have hr : w.result? "job" = some ⟨_, _⟩ := rfl
  have hm : c.getTable ⟨"p", "d", "t"⟩ = some _ := rfl
  have hkey : quotedTableRef ⟨"p", "d", "t"⟩ = .ok ("p__d", "t") := by decide
  have hstored : st.get ("p__d", "t") = some [1, 2] := rfl
  have hproject : e.project (parseSelectedFields none) = .ok (· + 1) := rfl
  have hp : ∀ size ∈ [1, 1, 7], 0 < size := by decide
  have h := pages_complete hm hkey hstored hproject
    (fun n => by simp [e, Nat.ofDigitChars_toDigits]) hr "p" hp
  exact ⟨h.1 (by decide), h.2 (by decide)⟩

end Bqemulator
