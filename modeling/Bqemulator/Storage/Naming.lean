import Bqemulator.Lib.Separated
import Bqemulator.Sql.TableRewriter

/-!
# Names of catalog objects in the database

A dataset is the schema `project__dataset`, a table is a table of that schema, and a routine is a
macro `project__dataset__routine`, with hyphens written `_h_`. The ids may have underscores, and the
database ignores case, so that two objects can get one name.
-/

open Separated

namespace Bqemulator

/-- The ids that the validation accepts. -/
abbrev SqlId := { value : String // isSqlSafeId value = true }

/-- The text of a table reference. -/
def quotedText (key : String × String) : String :=
  String.ofList ([Text.doubleQuote] ++ key.1.toList ++ [Text.doubleQuote, '.', Text.doubleQuote] ++
    key.2.toList ++ [Text.doubleQuote])

/-- **Confused ids**: the two underscores between the ids of one pair are found elsewhere in the
other. -/
def ConfusedIds (x y x' y' : String) : Prop :=
  Confused '_' x.toList y.toList x'.toList y'.toList

/-- **Datasets that share a schema**: their ids differ in the case of letters only, or are confused
when that is left aside. -/
def DatasetsShared (p d p' d' : String) : Prop :=
  ((Text.lower p = Text.lower p' ∧ Text.lower d = Text.lower d') ∧ (p, d) ≠ (p', d')) ∨
    ConfusedIds (Text.lower p) (Text.lower d) (Text.lower p') (Text.lower d')

/-- **Tables that share a reference.** -/
def TablesShared (p d t p' d' t' : String) : Prop :=
  (((Text.lower p = Text.lower p' ∧ Text.lower d = Text.lower d') ∧ Text.lower t = Text.lower t') ∧
      (p, d, t) ≠ (p', d', t')) ∨
    ConfusedIds (Text.lower p) (Text.lower d) (Text.lower p') (Text.lower d') ∧
      Text.lower t = Text.lower t'

/-- The part of the name of a routine that an id gives, as the database compares it. -/
def routinePart (id : String) : String := Text.lower (sanitize id)

/-- Two routines of which the ids are confused when hyphens are spelled out. -/
def RoutinesConfused (p d r p' d' r' : String) : Prop :=
  (routinePart p = routinePart p' ∧
      ConfusedIds (routinePart d) (routinePart r) (routinePart d') (routinePart r')) ∨
    ConfusedIds (routinePart p) (routinePart d ++ "__" ++ routinePart r) (routinePart p')
      (routinePart d' ++ "__" ++ routinePart r')

/-- **Routines that share a name**: their ids differ in case and in how hyphens are written only, or
are confused. -/
def RoutinesShared (p d r p' d' r' : String) : Prop :=
  ((routinePart p = routinePart p' ∧ routinePart d = routinePart d' ∧
      routinePart r = routinePart r') ∧ (p, d, r) ≠ (p', d', r')) ∨
    RoutinesConfused p d r p' d' r'

/-! ## Schemas and tables -/

variable {x y x' y' p d p' d' r r' : String}

theorem joinedName_eq_iff :
    x ++ "__" ++ y = x' ++ "__" ++ y' ↔ (x = x' ∧ y = y') ∨ ConfusedIds x y x' y' := by
  have hj : ∀ a b : String, (a ++ "__" ++ b).toList = Separated.joined '_' a.toList b.toList := by
    intro a b
    rw [String.toList_append, String.toList_append]
    rfl
  rw [← String.toList_inj, hj, hj, joined_eq_iff, String.toList_inj, String.toList_inj, ConfusedIds]

theorem ConfusedIds.ne (h : ConfusedIds x y x' y') : x ≠ x' := by
  intro heq
  exact Confused.ne h (congrArg String.toList heq)

theorem lower_joined (a b : String) :
    Text.lower (a ++ "__" ++ b) = Text.lower a ++ "__" ++ Text.lower b := by
  rw [Text.lower_append, Text.lower_append, show Text.lower "__" = "__" from by decide]

theorem schemaName_same_iff : Text.lower (schemaName p d) = Text.lower (schemaName p' d') ↔
    (Text.lower p = Text.lower p' ∧ Text.lower d = Text.lower d') ∨
      ConfusedIds (Text.lower p) (Text.lower d) (Text.lower p') (Text.lower d') := by
  rw [schemaName, schemaName, lower_joined, lower_joined, joinedName_eq_iff]

theorem quotedTableRef_of_safe (p d t : SqlId) :
    quotedTableRef ⟨p, d, t⟩ = .ok (schemaName p d, t) := by
  simp only [quotedTableRef, validateSqlId, p.2, d.2, t.2]
  rfl

theorem doubleQuote_notMem (p : SqlId) : Text.doubleQuote ∉ p.1.toList :=
  notMem_of_isSqlSafeId p.2 (by decide) (by decide) (by decide)

theorem eq_of_toLower_eq {c d : Char} (h : c.toLower = d) (hd : d.toNat < 'a'.toNat) : c = d := by
  unfold Char.toLower at h
  split at h
  · next hupper =>
    have hn : d.toNat = c.toNat + 32 := by
      have hle : c.val.toNat ≤ 90 := UInt32.le_iff_toNat_le.1 hupper.2
      have hshift : ('a'.val - 'A'.val).toNat = 32 := by decide
      rw [← h]
      simp only [Char.toNat, UInt32.toNat_add, hshift]
      omega
    have hge : 65 ≤ c.toNat := UInt32.le_iff_toNat_le.1 hupper.1
    have ha : 'a'.toNat = 97 := rfl
    omega
  · exact h

theorem doubleQuote_notMem_lower {s : String} (h : Text.doubleQuote ∉ s.toList) :
    Text.doubleQuote ∉ (Text.lower s).toList := by
  intro hm
  rw [Text.lower, String.toList_ofList] at hm
  obtain ⟨c, hc, heq⟩ := List.mem_map.1 hm
  exact h (eq_of_toLower_eq heq (by decide) ▸ hc)

theorem doubleQuote_notMem_schemaName (p d : SqlId) :
    Text.doubleQuote ∉ (schemaName p d).toList := by
  intro hm
  simp only [schemaName, String.toList_append, List.mem_append] at hm
  rcases hm with (hm | hm) | hm
  · exact doubleQuote_notMem p hm
  · exact absurd hm (by decide)
  · exact doubleQuote_notMem d hm

theorem lower_quotedText (key : String × String) :
    Text.lower (quotedText key) = quotedText (Text.lower key.1, Text.lower key.2) := by
  have hquote : Text.doubleQuote.toLower = Text.doubleQuote := by decide
  simp [Text.lower, quotedText, hquote]

theorem quotedText_inj {key key' : String × String} (h₁ : Text.doubleQuote ∉ key.1.toList)
    (h₁' : Text.doubleQuote ∉ key'.1.toList) (h₂ : Text.doubleQuote ∉ key.2.toList)
    (h₂' : Text.doubleQuote ∉ key'.2.toList) (h : quotedText key = quotedText key') :
    key = key' := by
  have ht := congrArg String.toList h
  simp only [quotedText, String.toList_ofList, List.append_assoc, List.cons_append, List.cons.injEq,
    true_and] at ht
  obtain ⟨hs, hr⟩ := append_cons_inj h₁ h₁' ht
  simp only [List.cons.injEq, true_and] at hr
  obtain ⟨ht, -⟩ := append_cons_inj h₂ h₂' hr
  exact Prod.ext (String.toList_inj.1 hs) (String.toList_inj.1 ht)

/-- The reference of a table is that of another iff schema and name are the same. -/
theorem quotedText_same_iff {p d t p' d' t' : SqlId} :
    Text.lower (quotedText (schemaName p d, t)) = Text.lower (quotedText (schemaName p' d', t')) ↔
      SamePhysical (schemaName p d, t) (schemaName p' d', t') := by
  rw [lower_quotedText, lower_quotedText]
  constructor
  · intro h
    have hkey : (Text.lower (schemaName p d), Text.lower t) =
        (Text.lower (schemaName p' d'), Text.lower t') := quotedText_inj
      (doubleQuote_notMem_lower (doubleQuote_notMem_schemaName p d))
      (doubleQuote_notMem_lower (doubleQuote_notMem_schemaName p' d'))
      (doubleQuote_notMem_lower (doubleQuote_notMem t))
      (doubleQuote_notMem_lower (doubleQuote_notMem t')) h
    exact Prod.mk.inj hkey
  · rintro ⟨hs, ht⟩
    rw [hs, ht]

/-! ## Routines -/

theorem qualifiedRoutineNameParts_of_safe (p d r : SqlId) :
    qualifiedRoutineNameParts p d r =
      .ok (sanitize p ++ "__" ++ sanitize d ++ "__" ++ sanitize r) := by
  simp only [qualifiedRoutineNameParts, validateSqlId, p.2, d.2, r.2]
  rfl

theorem routineName_same_iff :
    Text.lower (sanitize p ++ "__" ++ sanitize d ++ "__" ++ sanitize r) =
        Text.lower (sanitize p' ++ "__" ++ sanitize d' ++ "__" ++ sanitize r') ↔
      (routinePart p = routinePart p' ∧ routinePart d = routinePart d' ∧
        routinePart r = routinePart r') ∨ RoutinesConfused p d r p' d' r' := by
  have ha : ∀ a b c : String, a ++ "__" ++ b ++ "__" ++ c = a ++ "__" ++ (b ++ "__" ++ c) := by
    intro a b c
    simp only [String.append_assoc]
  rw [ha, ha, lower_joined, lower_joined, lower_joined, lower_joined, joinedName_eq_iff,
    joinedName_eq_iff, RoutinesConfused, and_or_left, or_assoc]
  rfl

theorem RoutinesConfused.ne (h : RoutinesConfused p d r p' d' r') : (p, d, r) ≠ (p', d', r') := by
  intro heq
  cases heq
  rcases h with ⟨-, hc⟩ | hc
  · exact hc.ne rfl
  · exact hc.ne rfl

/-! ## Injectivity -/

theorem tells_apart_iff {same alike confused equal : Prop} (h : same ↔ alike ∨ confused)
    (hne : confused → ¬ equal) : (same → equal) ↔ ¬ ((alike ∧ ¬ equal) ∨ confused) := by
  tauto

theorem triple_eq_iff {p d t p' d' t' : SqlId} : (p, d, t) = (p', d', t') ↔
    ((p : String), (d : String), (t : String)) = ((p' : String), (d' : String), (t' : String)) := by
  simp only [Prod.mk.injEq, Subtype.ext_iff]

/-- **The objects that names tell apart**, whatever the case of letters: tables, datasets and
routines have names of their own iff they do not share one by their ids. -/
theorem names_injective_iff (p d t p' d' t' : SqlId) :
    (((quotedTableRef ⟨p, d, t⟩).map (Text.lower ∘ quotedText) =
          (quotedTableRef ⟨p', d', t'⟩).map (Text.lower ∘ quotedText) →
        (p, d, t) = (p', d', t')) ↔ ¬ TablesShared p d t p' d' t') ∧
    ((Text.lower (schemaName p d) = Text.lower (schemaName p' d') → (p, d) = (p', d')) ↔
      ¬ DatasetsShared p d p' d') ∧
    (((qualifiedRoutineNameParts p d t).map Text.lower =
          (qualifiedRoutineNameParts p' d' t').map Text.lower →
        (p, d, t) = (p', d', t')) ↔ ¬ RoutinesShared p d t p' d' t') := by
  have hconfused : ConfusedIds (Text.lower p) (Text.lower d) (Text.lower p') (Text.lower d') →
      (p : String) ≠ p' := fun h heq => h.ne (congrArg Text.lower heq)
  refine ⟨?_, ?_, ?_⟩
  · rw [triple_eq_iff]
    refine tells_apart_iff ?_ fun h heq => hconfused h.1 (Prod.mk.inj heq).1
    rw [quotedTableRef_of_safe, quotedTableRef_of_safe, ← or_and_right, ← schemaName_same_iff]
    exact (Except.ok.injEq _ _).to_iff.trans quotedText_same_iff
  · have hpair : (p, d) = (p', d') ↔
        ((p : String), (d : String)) = ((p' : String), (d' : String)) := by
      simp only [Prod.mk.injEq, Subtype.ext_iff]
    rw [hpair]
    exact tells_apart_iff schemaName_same_iff fun h heq => hconfused h (Prod.mk.inj heq).1
  · rw [triple_eq_iff]
    refine tells_apart_iff ?_ RoutinesConfused.ne
    rw [qualifiedRoutineNameParts_of_safe, qualifiedRoutineNameParts_of_safe]
    exact (Except.ok.injEq _ _).to_iff.trans routineName_same_iff

/-- **Objects that share a name**: tables or routines of two datasets, routines whose projects
differ in a hyphen, datasets whose ids differ in case. -/
theorem names_shared :
    (⟨"a__b", "c", "t"⟩ : TableId) ≠ ⟨"a", "b__c", "t"⟩ ∧
    quotedTableRef ⟨"a__b", "c", "t"⟩ = .ok ("a__b__c", "t") ∧
    quotedTableRef ⟨"a", "b__c", "t"⟩ = .ok ("a__b__c", "t") ∧
    qualifiedRoutineNameParts "p" "a__b" "c" = .ok "p__a__b__c" ∧
    qualifiedRoutineNameParts "p" "a" "b__c" = .ok "p__a__b__c" ∧
    qualifiedRoutineNameParts "a-b" "d" "f" = .ok "a_h_b__d__f" ∧
    qualifiedRoutineNameParts "a_h_b" "d" "f" = .ok "a_h_b__d__f" ∧
    Text.lower (schemaName "p" "d") = Text.lower (schemaName "p" "D") := by
  decide

end Bqemulator
