import Mathlib

/-!
# Changes at a path of a JSON document

`JSON_SET`, `JSON_REMOVE` and `JSON_ARRAY_INSERT` walk down a document and change it at the end of a
path. `JSON_SET` creates the objects that are missing on its way.
-/

namespace Bqemulator.JsonPaths

open List Function

/-- A document over scalars `S`. The keys of an object are unique, and their order does not
matter. -/
inductive Json (S : Type) where
  | scalar (x : S)
  | array (vs : List (Json S))
  | object (m : List Char → Option (Json S))

inductive Step where
  | key (k : List Char)
  | index (i : ℕ)
deriving DecidableEq

abbrev Key := List Char

/-- A document that may be missing. -/
abbrev Doc (S : Type) := Option (Json S)

variable {S : Type}

open Json Step

/-- What stands at a path. -/
def get : List Step → Doc S → Doc S
  | [], d => d
  | key k :: p, some (object m) => get p (m k)
  | index i :: p, some (array vs) => get p vs[i]?
  | _, _ => none

/-- The members of a document that is an object or made one by `setdefault`. -/
def members : Doc S → Option (Key → Doc S)
  | none => some fun _ => none
  | some (object m) => some m
  | _ => none

/-- `bqemu_json_set`. -/
def jsonSet (v : Json S) : List Key → Doc S → Doc S
  | [], _ => some v
  | k :: ks, d => (members d).elim d fun m => some (object (update m k (jsonSet v ks (m k))))

/-- The loop of `bqemu_json_remove`. -/
def removeAt : List Key → Doc S → Doc S
  | [], _ => none
  | k :: ks, some (object m) => some (object (update m k (removeAt ks (m k))))
  | _, d => d

/-- `bqemu_json_remove`. -/
def jsonRemove (ks : List Key) (d : Doc S) : Doc S :=
  if ks = [] then d else removeAt ks d

/-- The keys of a path `$.k1.k2`. -/
def splitJsonPath : List Char → Option (List Key)
  | '$' :: tail =>
    if tail = [] ∨ tail.head? = some '.' then some ((tail.splitOn '.').filter (· ≠ [])) else none
  | _ => none

/-- The walk to an array and the insertion into it. -/
def insertAt (v : Json S) (i : ℕ) : List Step → Json S → Json S
  | [], array vs => array (vs.take (min i vs.length) ++ v :: vs.drop (min i vs.length))
  | key k :: p, object m => object (update m k ((m k).map (insertAt v i p)))
  | index j :: p, array vs => array (vs.modify j (insertAt v i p))
  | _, d => d

/-- The tokens of a path, with fuel. A negative index is refused like a text that is no path: the
document is returned in either case. -/
def parseTokens : ℕ → List Char → Option (List Step)
  | _, [] => some []
  | n + 1, '.' :: c :: cs =>
    let word (c : Char) := c.isAlphanum || c = '_'
    if c.isAlpha ∨ c = '_' then
      (parseTokens n (cs.dropWhile word)).map (key (c :: cs.takeWhile word) :: ·)
    else none
  | n + 1, '[' :: cs =>
    let ds := if cs.head? = some '-' then cs.tail else cs
    let i := Nat.ofDigitChars 10 (ds.takeWhile (·.isDigit)) 0
    if ds.takeWhile (·.isDigit) = [] ∨ cs ≠ ds ∧ i ≠ 0 then none
    else
      match ds.dropWhile (·.isDigit) with
      | ']' :: cs => (parseTokens n cs).map (index i :: ·)
      | _ => none
  | _, _ => none

/-- A path with indices, whose keys are words. -/
def parseJsonArrayInsertPath : List Char → Option (List Step)
  | '$' :: cs => parseTokens cs.length cs
  | _ => none

/-- `bqemu_json_array_insert`. -/
def jsonArrayInsert (d : Doc S) (path : List Char) (v : Json S) : Doc S :=
  match parseJsonArrayInsertPath path with
  | none => d
  | some tokens =>
    match tokens.getLast? with
    | some (index i) => d.map (insertAt v i tokens.dropLast)
    | _ => d

/-- Every proper start of the path that exists is an object. -/
def Settable : List Key → Doc S → Prop
  | [], _ => True
  | k :: ks, d => ∃ m ∈ members d, Settable ks (m k)

/-- Nothing changes but at paths that go on from `p` and at those that `p` goes on from. -/
def Frame (p : List Step) (d d' : Doc S) : Prop :=
  ∀ q, ¬ q <+: p → ¬ p <+: q → get q d' = get q d

variable {d d' : Doc S} {m : Key → Doc S} {k : Key} {p : List Step} {ks : List Key} (v : Json S)

theorem frame_nil : Frame [] d d' := fun _ _ h => absurd nil_prefix h

theorem get_none : ∀ p, get p (none : Doc S) = none
  | [] | key _ :: _ | index _ :: _ => rfl

theorem get_key (h : m ∈ members d) : get (key k :: p) d = get p (m k) := by
  rcases d with _ | _ | _ | _ <;> cases h
  · exact (get_none p).symm
  · rfl

theorem frame_key (hd : m ∈ members d) (h : Frame p (m k) d') :
    Frame (key k :: p) d (some (object (update m k d'))) := by
  rintro (_ | ⟨k' | i, q⟩) hq hp
  · exact absurd nil_prefix hq
  · rw [get_key hd, get]
    by_cases hk : k' = k
    · subst hk
      rw [update_self]
      exact h q (mt (prefix_cons_inj _).2 hq) (mt (prefix_cons_inj _).2 hp)
    · rw [update_of_ne hk]
  · rcases d with _ | _ | _ | _ <;> cases hd <;> rfl

/-- `JSON_SET` keeps the rest of a document. -/
theorem frame_jsonSet (ks : List Key) : Frame (ks.map key) d (jsonSet v ks d) := by
  induction ks generalizing d with
  | nil => exact frame_nil
  | cons k ks ih =>
    rw [jsonSet]
    cases hm : members d with
    | none => exact fun _ _ _ => rfl
    | some m => exact frame_key hm ih

theorem get_jsonSet (h : Settable ks d) : get (ks.map key) (jsonSet v ks d) = some v := by
  induction ks generalizing d with
  | nil => rfl
  | cons k ks ih =>
    obtain ⟨m, hm, h⟩ := h
    rw [jsonSet, Option.mem_def.1 hm, map_cons]
    simpa [get] using ih h

theorem jsonSet_jsonSet (w : Json S) : jsonSet v ks (jsonSet w ks d) = jsonSet v ks d := by
  induction ks generalizing d with
  | nil => rfl
  | cons k ks ih => rcases d with _ | _ | _ | _ <;> simp [jsonSet, members, ih]

theorem settable_none : ∀ ks, Settable ks (none : Doc S)
  | [] => trivial
  | _ :: ks => ⟨_, rfl, settable_none ks⟩

theorem jsonSet_eq_self (h : ¬ Settable ks d) : jsonSet v ks d = d := by
  induction ks generalizing d with
  | nil => exact absurd trivial h
  | cons k ks ih =>
    rcases d with _ | _ | _ | m
    · exact absurd (settable_none _) h
    · rfl
    · rfl
    · simp [jsonSet, members, ih fun hs => h ⟨m, rfl, hs⟩]

/-- `JSON_REMOVE` leaves the rest of the document. -/
theorem frame_removeAt (ks : List Key) : Frame (ks.map key) d (removeAt ks d) := by
  fun_induction removeAt ks d with
  | case1 => exact frame_nil
  | case2 k ks m ih => exact frame_key rfl ih
  | case3 => exact fun _ _ _ => rfl

theorem get_removeAt (ks : List Key) : get (ks.map key) (removeAt ks d) = none := by
  fun_induction removeAt ks d with
  | case1 => rfl
  | case2 k ks m ih => simpa [get] using ih
  | case3 ks d h h' =>
    obtain ⟨k, ks, rfl⟩ := exists_cons_of_ne_nil h
    rcases d with _ | _ | _ | m
    iterate 3 rfl
    exact absurd rfl (h' k ks m rfl)

theorem removeAt_eq_self (h : ¬ Settable ks d) : removeAt ks d = d := by
  fun_induction removeAt ks d with
  | case1 => exact absurd trivial h
  | case2 k ks m ih => rw [ih fun hs => h ⟨m, rfl, hs⟩, update_eq_self]
  | case3 => rfl

theorem removeAt_jsonSet (hp : get (ks.dropLast.map key) d ≠ none)
    (ha : get (ks.map key) d = none) : removeAt ks (jsonSet v ks d) = d := by
  induction ks generalizing d with
  | nil => exact absurd ha hp
  | cons k ks ih =>
    rcases d with _ | _ | _ | m
    · exact absurd (get_none _) hp
    · rfl
    · rfl
    · have hr : removeAt ks (jsonSet v ks (m k)) = m k := by
        cases ks with
        | nil => exact ha.symm
        | cons => exact ih hp ha
      simp [jsonSet, members, removeAt, hr]

theorem frame_insertAt (i : ℕ) (p : List Step) : Frame p d (d.map (insertAt v i p)) := by
  induction p generalizing d with
  | nil => exact frame_nil
  | cons s p ih =>
    rcases d with _ | _ | vs | m <;> rcases s with k | j <;> try exact fun _ _ _ => rfl
    · rintro (_ | ⟨k' | i', q⟩) hq hp
      · exact absurd nil_prefix hq
      · rfl
      · simp only [Option.map_some, insertAt, get, getElem?_modify]
        split
        · subst i'
          exact ih q (mt (prefix_cons_inj _).2 hq) (mt (prefix_cons_inj _).2 hp)
        · cases vs[i']? <;> rfl
    · exact frame_key rfl ih

theorem get_insertAt {i : ℕ} {a : List (Json S)} (h : get p d = some (array a))
    (hi : i ≤ a.length) :
    get p (d.map (insertAt v i p)) = some (array (a.take i ++ v :: a.drop i)) := by
  fun_induction get p d with
  | case1 d =>
    subst h
    simp [insertAt, hi, get]
  | case2 k p m ih => simpa [insertAt, get] using ih h
  | case3 j p vs ih => simpa [insertAt, get, getElem?_modify] using ih h
  | case4 => cases h

/-- The path `$.k1.k2` of keys. -/
def pathText (ks : List Key) : List Char := '$' :: ['.'].intercalate ([] :: ks)

theorem splitJsonPath_pathText (hk : ∀ k ∈ ks, k ≠ [] ∧ '.' ∉ k) :
    splitJsonPath (pathText ks) = some ks := by
  have hs : (['.'].intercalate ([] :: ks)).splitOn '.' = [] :: ks :=
    splitOn_intercalate '.' (by simpa using fun k h => (hk k h).2) (by simp)
  have hf : ks.filter (· ≠ []) = ks := filter_eq_self.2 fun k h => by simpa using (hk k h).1
  rw [pathText, splitJsonPath, if_pos (by cases ks <;> simp [intercalate]), hs]
  simpa using hf

/-- **The changes at a path** of keys without dots. -/
theorem json_spec (v w : Json S) (hn : ks ≠ []) (hk : ∀ k ∈ ks, k ≠ [] ∧ '.' ∉ k) :
    splitJsonPath (pathText ks) = some ks ∧
    (Settable ks d →
      get (ks.map key) (jsonSet v ks d) = some v ∧ Frame (ks.map key) d (jsonSet v ks d) ∧
      get (ks.map key) (jsonRemove ks d) = none ∧ Frame (ks.map key) d (jsonRemove ks d)) ∧
    jsonSet v ks (jsonSet w ks d) = jsonSet v ks d ∧
    (get (ks.dropLast.map key) d ≠ none → get (ks.map key) d = none →
      jsonRemove ks (jsonSet v ks d) = d) ∧
    (¬ Settable ks d → jsonSet v ks d = d ∧ jsonRemove ks d = d) ∧
    ∀ path, (parseJsonArrayInsertPath path = none → jsonArrayInsert d path v = d) ∧
      ∀ p i a, parseJsonArrayInsertPath path = some (p ++ [index i]) →
        get p d = some (array a) → i ≤ a.length →
        get p (jsonArrayInsert d path v) = some (array (a.take i ++ v :: a.drop i)) ∧
        Frame p d (jsonArrayInsert d path v) := by
  have hr d : jsonRemove ks d = removeAt ks (d : Doc S) := if_neg hn
  simp only [hr]
  refine ⟨splitJsonPath_pathText hk, fun h => ⟨get_jsonSet v h, frame_jsonSet v ks,
    get_removeAt ks, frame_removeAt ks⟩, jsonSet_jsonSet v w, removeAt_jsonSet v,
    fun h => ⟨jsonSet_eq_self v h, removeAt_eq_self h⟩, fun path => ⟨fun h => ?_, ?_⟩⟩
  · rw [jsonArrayInsert, h]
  · intro p i a hs ha hi
    have hj : jsonArrayInsert d path v = d.map (insertAt v i p) := by
      simp [jsonArrayInsert, hs]
    rw [hj]
    exact ⟨get_insertAt v ha hi, frame_insertAt v i p⟩

theorem json_spec_missing : let d : Json ℕ := object fun _ => none
    get [key ['a'], key ['b']] (jsonSet (scalar 1) [['a'], ['b']] (some d)) = some (scalar 1) := by
  intro d
  have hs : Settable [['a'], ['b']] (some d) := ⟨_, rfl, _, rfl, trivial⟩
  exact ((json_spec _ d (by decide) (by decide)).2.1 hs).1

/-- No value is inserted below a key that is not a word. -/
theorem jsonArrayInsert_hyphen : let d : Json ℕ := object fun _ => some (array [])
    get [key ['a', '-', 'b']] (jsonArrayInsert (some d) ['$', '.', 'a', '-', 'b', '[', '0', ']']
      (scalar 1)) ≠ some (array [scalar 1]) := by
  have hs : parseJsonArrayInsertPath ['$', '.', 'a', '-', 'b', '[', '0', ']'] = none := by decide
  simp [jsonArrayInsert, hs, get]

/-- **Writes at two places**: in either order, when neither path begins with the other. -/
theorem jsonSet_comm {ls : List Key} (v w : Json S) (h : ¬ ks <+: ls) (h' : ¬ ls <+: ks) :
    jsonSet v ks (jsonSet w ls d) = jsonSet w ls (jsonSet v ks d) := by
  induction ks generalizing ls d with
  | nil => exact absurd nil_prefix h
  | cons k ks ih =>
    rcases ls with _ | ⟨l, ls⟩
    · exact absurd nil_prefix h'
    by_cases hl : k = l
    · subst hl
      have hi := fun d : Doc S => ih (d := d) (fun hp => h ((prefix_cons_inj k).2 hp))
        fun hp => h' ((prefix_cons_inj k).2 hp)
      rcases d with _ | _ | _ | m <;> simp [jsonSet, members, hi]
    · rcases d with _ | _ | _ | m <;> simp [jsonSet, members, hl, Ne.symm hl, update_comm hl]

theorem jsonSet_comm_ab : let v : Json ℕ := .scalar 1
    jsonSet v [['a'], ['x']] (jsonSet v [['b']] none) =
      jsonSet v [['b']] (jsonSet v [['a'], ['x']] none) :=
  jsonSet_comm _ _ (by decide) (by decide)

end Bqemulator.JsonPaths
