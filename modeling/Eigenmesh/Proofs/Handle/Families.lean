import Mathlib.Data.Nat.Notation
import Mathlib.Tactic.Common
import Eigenmesh.Proofs.Handle.Adjustment
import Eigenmesh.Proofs.Package.Precedence
import Eigenmesh.Proofs.Scalar.Rational

/-!
Handles of different families do not share options.

What a handle looks up is its family followed by one of twenty names. No name ends in another one,
so a text can be cut into a family and a name in one way only, however the families are related:
what is given for one family is never found by another. Each of the names is looked up, though, and
what is given for the handle's own family can make it refuse the options.
-/

namespace Eigenmesh

namespace Options

variable {β : Type} {o o' : Options} {family name : String}

lemma value?_congr {read : String → Option β}
    (h : o.get? (family ++ name) = o'.get? (family ++ name)) :
    o.value? read family name = o'.value? read family name := by
  simp only [value?, h]

lemma flag?_congr (h : o.get? (family ++ name) = o'.get? (family ++ name)) :
    o.flag? family name = o'.flag? family name := by
  simp only [flag?, h]

lemma string?_congr (h : o.get? (family ++ name) = o'.get? (family ++ name)) :
    o.string? family name = o'.string? family name := by
  simp only [string?, h]

lemma exists_value?_put_none (o : Options) (read : String → Option β) (family name : String) :
    ∃ e, (o.put (family ++ name) none).value? read family name = .error e :=
  ⟨_, by simp only [value?, get?_put, if_pos]; rfl⟩

lemma exists_flag?_put (o : Options) (family name : String) {value : String}
    (h : boolean? value = none) :
    ∃ e, (o.put (family ++ name) (some value)).flag? family name = .error e :=
  ⟨_, by simp only [flag?, get?_put, if_pos, h]; rfl⟩

lemma string?_put (o : Options) (family name : String) (value : Option String) :
    (o.put (family ++ name) value).string? family name = value := by
  unfold string?
  rw [get?_put, if_pos rfl]
  rfl

end Options

namespace Handle

variable {α β γ : Type} [Scalar α] {o o' : Options} {family : String}

/-- What is looked up behind the family. -/
def optionNames : List String :=
  ["eps_nev", "eps_tol", "eps_max_it", "eps_target"] ++ Which.all.map Which.optionName ++
    ProblemType.all.map ProblemType.optionName ++ ["eps_type", "st_type", "st_shift", "eps_view"]

/-! ### Families and names -/

lemma eq_of_suffix :
    ∀ m ∈ optionNames, ∀ n ∈ optionNames, m.toList <:+ n.toList → m = n := by
  decide +kernel

lemma family_injective {p q m n : String} (hm : m ∈ optionNames) (hn : n ∈ optionNames)
    (e : p ++ m = q ++ n) : p = q := by
  have chars : p.toList ++ m.toList = q.toList ++ n.toList := by
    rw [← String.toList_append, ← String.toList_append, e]
  have same : m = n := by
    rcases List.append_eq_append_iff.1 chars with ⟨gap, -, h⟩ | ⟨gap, -, h⟩
    · exact (eq_of_suffix n hn m hm ⟨gap, h.symm⟩).symm
    · exact eq_of_suffix m hm n hn ⟨gap, h.symm⟩
  subst same
  exact String.toList_injective (List.append_cancel_right chars)

/-! ### What is looked up -/

/-- The options say the same about all names of a family. -/
def AgreeOn (family : String) (o o' : Options) : Prop :=
  ∀ name ∈ optionNames, o.get? (family ++ name) = o'.get? (family ++ name)

lemma agreeOn_of_other {q : String} (hq : q ≠ family)
    (h : ∀ key, o.get? key ≠ o'.get? key → ∃ name ∈ optionNames, key = q ++ name) :
    AgreeOn family o o' := by
  intro m hm
  by_contra differs
  obtain ⟨n, hn, e⟩ := h _ differs
  exact hq (family_injective hm hn e).symm

omit [Scalar α] in
lemma applyValue_congr {read : String → Option β} {option routine : String}
    {f : Handle α → β → Except PackageError (Handle α)}
    (h : o.get? (family ++ option) = o'.get? (family ++ option)) :
    applyValue o family read option routine f = applyValue o' family read option routine f := by
  unfold applyValue
  rw [Options.value?_congr h]

omit [Scalar α] in
lemma applyFlags_congr {flag : β → String} {f : Handle α → β → Handle α} :
    ∀ choices : List β,
      (∀ c ∈ choices, o.get? (family ++ flag c) = o'.get? (family ++ flag c)) →
      applyFlags o family choices flag f = applyFlags o' family choices flag f
  | [], _ => rfl
  | c :: choices, h => by
    have rest := applyFlags_congr (f := f) choices fun d hd => h d (.tail _ hd)
    unfold applyFlags at rest ⊢
    rw [List.forM, List.forM, rest, Options.flag?_congr (h c (.head _))]

lemma applyName_congr {option : String} {ofName? : String → Option β}
    {unknown : String → Fault α} {f : Handle α → β → Handle α}
    (h : o.get? (family ++ option) = o'.get? (family ++ option)) :
    applyName o family option ofName? unknown f = applyName o' family option ofName? unknown f := by
  unfold applyName
  rw [Options.string?_congr h]

lemma applyTolerances_congr
    (ht : o.get? (family ++ "eps_tol") = o'.get? (family ++ "eps_tol"))
    (hm : o.get? (family ++ "eps_max_it") = o'.get? (family ++ "eps_max_it")) :
    (applyTolerances o family : Update α Unit) = applyTolerances o' family := by
  unfold applyTolerances
  rw [Options.value?_congr ht, Options.value?_congr hm]

lemma applyFamily_congr (h : AgreeOn family o o') :
    (applyFamily o family : Update α Unit) = applyFamily o' family := by
  have which : ∀ w ∈ Which.all, w.optionName ∈ optionNames := by decide
  have problem : ∀ p ∈ ProblemType.all, p.optionName ∈ optionNames := by decide
  unfold applyFamily
  rw [applyValue_congr (h "eps_nev" (by decide)),
    applyTolerances_congr (h "eps_tol" (by decide)) (h "eps_max_it" (by decide)),
    applyValue_congr (h "eps_target" (by decide)),
    applyFlags_congr _ fun w hw => h _ (which w hw),
    applyFlags_congr _ fun p hp => h _ (problem p hp),
    applyName_congr (h "eps_type" (by decide)),
    applyName_congr (h "st_type" (by decide)),
    applyValue_congr (h "st_shift" (by decide)),
    Options.flag?_congr (h "eps_view" (by decide))]

/-! ### What can be refused -/

namespace Update

/-- The update breaks off, whatever handle it is made on. -/
def Refuses (m : Update α β) : Prop := ∀ h : Handle α, ∃ e, (m.run h).1 = .error e

omit [Scalar α]

lemma refuses_throw (e : PackageError) : Refuses (throw e : Update α β) := fun _ => ⟨e, rfl⟩

lemma refuses_lift {r : Except PackageError β} (h : ∃ e, r = .error e) :
    Refuses (liftM r : Update α β) := by
  obtain ⟨e, rfl⟩ := h
  exact fun _ => ⟨e, rfl⟩

lemma Refuses.bind {m : Update α β} (hm : Refuses m) (f : β → Update α γ) : Refuses (m >>= f) := by
  intro h
  obtain ⟨e, he⟩ := hm h
  rw [run_bind]
  rcases hr : m.run h with ⟨_ | x, h'⟩
  · exact ⟨_, rfl⟩
  · rw [hr] at he
    nomatch he

lemma refuses_bind (m : Update α β) {f : β → Update α γ} (hf : ∀ x, Refuses (f x)) :
    Refuses (m >>= f) := by
  intro h
  rw [run_bind]
  rcases m.run h with ⟨_ | x, h'⟩
  · exact ⟨_, rfl⟩
  · exact hf x h'

lemma refuses_applyValue {read : String → Option β} {option routine : String}
    {f : Handle α → β → Except PackageError (Handle α)}
    (h : ∃ e, o.value? read family option = .error e) :
    Refuses (applyValue o family read option routine f) :=
  (refuses_lift h).bind _

lemma refuses_applyFlags {flag : β → String} {f : Handle α → β → Handle α} {c : β}
    (h : ∃ e, o.flag? family (flag c) = .error e) :
    ∀ {choices : List β}, c ∈ choices → Refuses (applyFlags o family choices flag f)
  | d :: choices, hc => by
    rcases List.mem_cons.1 hc with rfl | hc
    · exact ((refuses_lift h).bind _).bind _
    · exact refuses_bind _ fun _ => refuses_applyFlags h hc

lemma refuses_applyName {option name : String} {ofName? : String → Option β}
    {unknown : String → Fault α} {f : Handle α → β → Handle α} [Scalar α]
    (given : o.string? family option = some name) (h : ofName? name = none) :
    Refuses (applyName o family option ofName? unknown f) := by
  unfold applyName
  rw [given]
  simp only [h]
  exact refuses_throw _

lemma refuses_applyTolerances [Scalar α]
    (h : (∃ e, (o.value? Scalar.read? family "eps_tol" : Except _ (Option α)) = .error e) ∨
      ∃ e, o.value? Decimal.size? family "eps_max_it" = .error e) :
    Refuses (applyTolerances o family : Update α Unit) := by
  rcases h with h | h
  · exact (refuses_lift h).bind _
  · exact refuses_bind _ fun _ => (refuses_lift h).bind _

end Update

/-- Every name of the family is looked up: with the wrong value it makes the options fail. -/
lemma exists_refuses {name : String} (hn : name ∈ optionNames) (family : String) :
    ∃ value, ∀ o : Options,
      Update.Refuses (applyFamily (o.put (family ++ name) value) family : Update α Unit) := by
  have unreadable : Options.boolean? "?" = none := by decide +kernel
  simp only [optionNames, List.mem_append, List.mem_cons, List.not_mem_nil, or_false,
    List.mem_map] at hn
  unfold applyFamily
  open Update in
  rcases hn with (((rfl | rfl | rfl | rfl) | ⟨w, hw, rfl⟩) | ⟨p, hp, rfl⟩) | rfl | rfl | rfl | rfl
  -- every option is read after those of the stages before, which may have failed already
  · exact ⟨none, fun o => (refuses_applyValue (o.exists_value?_put_none _ _ _)).bind _⟩
  · refine ⟨none, fun o => refuses_bind _ fun _ => ?_⟩
    exact (refuses_applyTolerances (.inl (o.exists_value?_put_none _ _ _))).bind _
  · refine ⟨none, fun o => refuses_bind _ fun _ => ?_⟩
    exact (refuses_applyTolerances (.inr (o.exists_value?_put_none _ _ _))).bind _
  · refine ⟨none, fun o => ?_⟩
    iterate 2 refine refuses_bind _ fun _ => ?_
    exact (refuses_applyValue (o.exists_value?_put_none _ _ _)).bind _
  · refine ⟨some "?", fun o => ?_⟩
    iterate 3 refine refuses_bind _ fun _ => ?_
    exact (refuses_applyFlags (o.exists_flag?_put _ _ unreadable) hw).bind _
  · refine ⟨some "?", fun o => ?_⟩
    iterate 4 refine refuses_bind _ fun _ => ?_
    exact (refuses_applyFlags (o.exists_flag?_put _ _ unreadable) hp).bind _
  · refine ⟨some "?", fun o => ?_⟩
    iterate 5 refine refuses_bind _ fun _ => ?_
    exact (refuses_applyName (o.string?_put _ _ _) (by decide)).bind _
  · refine ⟨some "?", fun o => ?_⟩
    iterate 6 refine refuses_bind _ fun _ => ?_
    exact (refuses_applyName (o.string?_put _ _ _) (by decide)).bind _
  · refine ⟨none, fun o => ?_⟩
    iterate 7 refine refuses_bind _ fun _ => ?_
    exact (refuses_applyValue (o.exists_value?_put_none _ _ _)).bind _
  · refine ⟨some "?", fun o => ?_⟩
    iterate 8 refine refuses_bind _ fun _ => ?_
    exact (refuses_lift (o.exists_flag?_put _ _ unreadable)).bind _

lemma exists_refused (h : Handle α) {name : String} (hn : name ∈ optionNames) :
    ∃ value, ∀ o : Options, ∃ e,
      (h.setFromOptions (o.put (h.family ++ name) value)).2 = .error e := by
  obtain ⟨value, refuses⟩ := exists_refuses (α := α) hn h.family
  refine ⟨value, fun o => ?_⟩
  obtain ⟨e, he⟩ := refuses o h
  refine ⟨e.via "Eps::set_from_options", ?_⟩
  rw [setFromOptions_eq, he]
  rfl

/-- **Handles of different families do not share options.** A change of the options that concerns
names of another family only, whatever that family is, changes neither the handle that the options
are applied to nor the answer. Of its own family the handle looks up every name: with some value
behind it the options fail. -/
theorem setFromOptions_isolated (h : Handle α) :
    (∀ (q : String) (o o' : Options), q ≠ h.family →
      (∀ key, o.get? key ≠ o'.get? key → ∃ name ∈ optionNames, key = q ++ name) →
      h.setFromOptions o = h.setFromOptions o') ∧
    ∀ name ∈ optionNames, ∃ value, ∀ o : Options, ∃ e,
      (h.setFromOptions (o.put (h.family ++ name) value)).2 = .error e := by
  constructor
  · intro q o o' hq changes
    have same := applyFamily_congr (α := α) (agreeOn_of_other hq changes)
    rw [setFromOptions_eq, setFromOptions_eq, same]
  · exact fun name hn => h.exists_refused hn

/-- The number of modes that the empty family is given does not reach the family `modes_`, although
what the handle looks up ends in what is given. -/
theorem setFromOptions_isolated_modes :
    let h : Handle Rat := { fresh with family := "modes_" }
    "" ≠ h.family ∧
      h.setFromOptions (Options.empty.put "eps_nev" (some "7")) = h.setFromOptions .empty := by
  intro h
  have other : "" ≠ h.family := by decide
  refine ⟨other, (setFromOptions_isolated h).1 "" _ _ other fun key differs => ?_⟩
  refine ⟨"eps_nev", by decide, ?_⟩
  rw [String.empty_append]
  by_contra none
  exact differs (by rw [Options.get?_put, if_neg none])

end Handle

end Eigenmesh
