import Mathlib.Data.List.Perm.Basic

/-!
# Results and faults

A chain of steps that may fail has a result exactly if every step has one: `bind_eq_ok_iff`. A list
of steps has the list of their results (`mapM_eq_ok_iff`).

Two chains of steps end alike if they come to results that are related, or to one fault (`Alike`);
chains whose steps do end alike themselves (`Alike.bind`, `Alike.foldlM`).
-/

namespace Listing

variable {ε α β γ : Type}

@[simp] theorem pure_eq_ok (a : α) : (pure a : Except ε α) = .ok a := rfl

@[simp] theorem throw_eq_error (e : ε) : (throw e : Except ε α) = .error e := rfl

@[simp] theorem ok_bind (a : α) (f : α → Except ε β) : (Except.ok a >>= f) = f a := rfl

@[simp] theorem error_bind (e : ε) (f : α → Except ε β) :
    ((Except.error e : Except ε α) >>= f) = .error e := rfl

@[simp] theorem ok_map (a : α) (f : α → β) : (Except.ok a : Except ε α).map f = .ok (f a) := rfl

@[simp] theorem error_map (e : ε) (f : α → β) : (Except.error e : Except ε α).map f = .error e := rfl

theorem bind_eq_ok_iff {x : Except ε α} {f : α → Except ε β} {b : β} :
    (x >>= f) = .ok b ↔ ∃ a, x = .ok a ∧ f a = .ok b := by
  cases x <;> simp

theorem bind_eq_error_iff {x : Except ε α} {f : α → Except ε β} {e : ε} :
    (x >>= f) = .error e ↔ x = .error e ∨ ∃ a, x = .ok a ∧ f a = .error e := by
  cases x <;> simp

/-- An error that is made from a result is no result. -/
theorem bind_error_ne_ok {x : Except ε α} {f : α → ε} {b : β} :
    (x >>= fun a => (.error (f a) : Except ε β)) ≠ .ok b := by
  cases x <;> simp

theorem map_eq_ok_iff {x : Except ε α} {f : α → β} {b : β} :
    x.map f = .ok b ↔ ∃ a, x = .ok a ∧ f a = b := by
  cases x <;> simp

theorem bind_map (x : Except ε α) (f : α → Except ε β) (g : β → γ) :
    (x >>= f).map g = x >>= fun a => (f a).map g := by
  cases x <;> rfl

theorem exists_of_isOk {x : Except ε α} (h : x.isOk = true) : ∃ a, x = .ok a := by
  cases x with
  | error e => cases h
  | ok a => exact ⟨a, rfl⟩

/-- **The steps of a list have the list of their results.** -/
theorem mapM_eq_ok_iff {f : α → Except ε β} {as : List α} {bs : List β} :
    as.mapM f = .ok bs ↔ List.Forall₂ (fun a b => f a = .ok b) as bs := by
  induction as generalizing bs with
  | nil => simp [eq_comm]
  | cons a as ih =>
    rw [List.mapM_cons, bind_eq_ok_iff]
    constructor
    · rintro ⟨b, hb, h⟩
      obtain ⟨bs', hbs, h⟩ := bind_eq_ok_iff.1 h
      obtain rfl := Except.ok.inj h
      exact .cons hb (ih.1 hbs)
    · rintro (_ | ⟨hb, hbs⟩)
      exact ⟨_, hb, bind_eq_ok_iff.2 ⟨_, ih.2 hbs, rfl⟩⟩

theorem mapM_congr {f g : α → Except ε β} {as : List α} (h : ∀ a ∈ as, f a = g a) :
    as.mapM f = as.mapM g := by
  induction as with
  | nil => rfl
  | cons a as ih =>
    rw [List.mapM_cons, List.mapM_cons, h a (List.mem_cons_self ..),
      ih fun a ha => h a (List.mem_cons_of_mem _ ha)]

/-- Steps in another order have their results in that order. -/
theorem mapM_perm {f : α → Except ε β} {as as' : List α} {bs : List β} (h : as'.Perm as)
    (hbs : as.mapM f = .ok bs) : ∃ bs', as'.mapM f = .ok bs' ∧ bs'.Perm bs := by
  obtain ⟨bs', hforall, hperm⟩ := List.perm_comp_forall₂ h (mapM_eq_ok_iff.1 hbs)
  exact ⟨bs', mapM_eq_ok_iff.2 hforall, hperm⟩

/-- Every result comes from a step. -/
theorem exists_of_mem_mapM {f : α → Except ε β} {as : List α} {bs : List β}
    (h : as.mapM f = .ok bs) {b : β} (hb : b ∈ bs) : ∃ a ∈ as, f a = .ok b := by
  induction mapM_eq_ok_iff.1 h with
  | nil => cases hb
  | @cons a b' as bs hab hrest ih =>
    rcases List.mem_cons.1 hb with rfl | hb
    · exact ⟨a, List.mem_cons_self .., hab⟩
    · obtain ⟨a', ha', hab'⟩ := ih (mapM_eq_ok_iff.2 hrest) hb
      exact ⟨a', List.mem_cons_of_mem _ ha', hab'⟩

/-- Every step has a result. -/
theorem exists_of_mapM {f : α → Except ε β} {as : List α} {bs : List β} (h : as.mapM f = .ok bs)
    {a : α} (ha : a ∈ as) : ∃ b ∈ bs, f a = .ok b := by
  induction mapM_eq_ok_iff.1 h with
  | nil => cases ha
  | @cons a' b as bs hab hrest ih =>
    rcases List.mem_cons.1 ha with rfl | ha
    · exact ⟨b, List.mem_cons_self .., hab⟩
    · obtain ⟨b', hb', hab'⟩ := ih (mapM_eq_ok_iff.2 hrest) ha
      exact ⟨b', List.mem_cons_of_mem _ hb', hab'⟩

/-- A part of a list has the results of that part. -/
theorem mapM_take_drop {f : α → Except ε β} {as : List α} {bs : List β}
    (h : as.mapM f = .ok bs) (i n : Nat) :
    ((as.drop i).take n).mapM f = .ok ((bs.drop i).take n) := by
  rw [mapM_eq_ok_iff] at h ⊢
  exact List.forall₂_take n (List.forall₂_drop i h)

/-- Items are kept where the answers say so, if there is an answer for every item. -/
theorem filterM_map_eq_ok {f : β → Except ε Bool} {g : α → β} {p : α → Bool} {as : List α}
    (h : ∀ a ∈ as, f (g a) = .ok (p a)) : (as.map g).filterM f = .ok ((as.filter p).map g) := by
  have hfrom : ∀ acc : List β,
      (as.map g).filterAuxM f acc = .ok (((as.filter p).map g).reverse ++ acc) := by
    induction as with
    | nil => exact fun acc => rfl
    | cons a as ih =>
      intro acc
      rw [List.map_cons, List.filterAuxM, h a (List.mem_cons_self ..), ok_bind,
        ih fun a ha => h a (List.mem_cons_of_mem _ ha), List.filter_cons]
      cases p a <;> simp
  unfold List.filterM
  rw [hfrom, ok_bind, List.append_nil, List.reverse_reverse]
  rfl

/-- Where items are kept there is an answer for every item. -/
theorem exists_of_filterM {f : α → Except ε Bool} {as bs : List α} (h : as.filterM f = .ok bs) :
    ∃ p : α → Bool, (∀ a ∈ as, f a = .ok (p a)) ∧ bs = as.filter p := by
  have hfrom : ∀ acc cs, as.filterAuxM f acc = .ok cs → ∀ a ∈ as, ∃ b, f a = .ok b := by
    clear h
    induction as with
    | nil => exact fun _ _ _ _ ha => absurd ha List.not_mem_nil
    | cons a as ih =>
      intro acc cs h a' ha'
      rw [List.filterAuxM] at h
      obtain ⟨b, hb, h⟩ := bind_eq_ok_iff.1 h
      rcases List.mem_cons.1 ha' with rfl | ha'
      · exact ⟨b, hb⟩
      · exact ih _ _ h a' ha'
  obtain ⟨cs, hcs, -⟩ := bind_eq_ok_iff.1 h
  have hanswers : ∀ a ∈ as, f a = .ok ((f a).toOption.getD false) := by
    intro a ha
    obtain ⟨b, hb⟩ := hfrom _ _ hcs a ha
    rw [hb]
    rfl
  refine ⟨_, hanswers, ?_⟩
  have hkept := filterM_map_eq_ok (g := id) hanswers
  rw [List.map_id, List.map_id, h] at hkept
  exact Except.ok.inj hkept

/-- **Items are kept where the answers say so**, and only then. -/
theorem filterM_eq_filter_iff {f : α → Except ε Bool} {p : α → Bool} {as : List α} :
    as.filterM f = .ok (as.filter p) ↔ ∀ a ∈ as, f a = .ok (p a) := by
  constructor
  · intro h a ha
    obtain ⟨q, hq, heq⟩ := exists_of_filterM h
    have hiff : p a = true ↔ q a = true := by
      have hmem : a ∈ as.filter p ↔ a ∈ as.filter q := by rw [heq]
      simpa [List.mem_filter, ha] using hmem
    rw [hq a ha, Bool.eq_iff_iff.2 hiff]
  · intro h
    have hkept := filterM_map_eq_ok (g := id) h
    rwa [List.map_id, List.map_id] at hkept

/-- Questions to what is left of a list are questions to the whole list, in which the others are not
asked. -/
theorem filterM_filter (f : α → Except ε Bool) (p : α → Bool) (as : List α) :
    (as.filter p).filterM f = as.filterM fun a => if p a then f a else .ok false := by
  have hfrom : ∀ acc : List α, (as.filter p).filterAuxM f acc =
      as.filterAuxM (fun a => if p a then f a else .ok false) acc := by
    induction as with
    | nil => exact fun _ => rfl
    | cons a as ih =>
      intro acc
      rw [List.filter_cons, List.filterAuxM]
      cases p a with
      | false => exact ih acc
      | true => exact bind_congr fun kept => ih _
  rw [List.filterM, List.filterM, hfrom]

/-- Where all the questions that fail do so with one fault, a list of which one fails has it. -/
theorem filterM_eq_error {f : α → Except ε Bool} {as : List α} {fault : ε}
    (h : ∀ a ∈ as, (∃ b, f a = .ok b) ∨ f a = .error fault)
    (hfault : ∃ a ∈ as, f a = .error fault) : as.filterM f = .error fault := by
  have hfrom : ∀ acc, as.filterAuxM f acc = .error fault := by
    induction as with
    | nil =>
      obtain ⟨a, ha, -⟩ := hfault
      cases ha
    | cons a as ih =>
      intro acc
      rw [List.filterAuxM]
      rcases h a (List.mem_cons_self ..) with ⟨b, hb⟩ | ha
      · rw [hb, ok_bind]
        refine ih (fun a ha => h a (List.mem_cons_of_mem _ ha)) ?_ _
        obtain ⟨a', ha', hfault⟩ := hfault
        rcases List.mem_cons.1 ha' with rfl | ha'
        · cases hb.symm.trans hfault
        · exact ⟨a', ha', hfault⟩
      · rw [ha]
        rfl
  unfold List.filterM
  rw [hfrom]
  rfl

theorem filterM_congr {f g : α → Except ε Bool} {as : List α} (h : ∀ a ∈ as, f a = g a) :
    as.filterM f = as.filterM g := by
  have hfrom : ∀ acc : List α, as.filterAuxM f acc = as.filterAuxM g acc := by
    induction as with
    | nil => exact fun _ => rfl
    | cons a as ih =>
      intro acc
      rw [List.filterAuxM, List.filterAuxM, h a (List.mem_cons_self ..)]
      exact bind_congr fun kept => ih (fun a ha => h a (List.mem_cons_of_mem _ ha)) _
  rw [List.filterM, List.filterM, hfrom]

/-- A list of steps is asked up to the first that says yes; where every step has an answer, that is
whether one of them does. -/
theorem anyM_eq_ok {f : α → Except ε Bool} {p : α → Bool} {as : List α}
    (h : ∀ a ∈ as, f a = .ok (p a)) : as.anyM f = .ok (as.any p) := by
  induction as with
  | nil => rfl
  | cons a as ih =>
    rw [List.anyM_cons, h a (List.mem_cons_self ..), ok_bind, List.any_cons,
      ih fun a ha => h a (List.mem_cons_of_mem _ ha)]
    cases p a <;> rfl

/-- Where all the steps that fail do so with one fault, a list of which one step fails has it. -/
theorem mapM_eq_error {f : α → Except ε β} {as : List α} {fault : ε}
    (h : ∀ a ∈ as, (∃ b, f a = .ok b) ∨ f a = .error fault)
    (hfault : ∃ a ∈ as, f a = .error fault) : as.mapM f = .error fault := by
  induction as with
  | nil =>
    obtain ⟨a, ha, -⟩ := hfault
    cases ha
  | cons a as ih =>
    rw [List.mapM_cons]
    rcases h a (List.mem_cons_self ..) with ⟨b, hb⟩ | ha
    · have hfault : ∃ a ∈ as, f a = .error fault := by
        obtain ⟨a', ha', hfault⟩ := hfault
        rcases List.mem_cons.1 ha' with rfl | ha'
        · rw [hb] at hfault
          cases hfault
        · exact ⟨a', ha', hfault⟩
      rw [hb, ok_bind, ih (fun a ha => h a (List.mem_cons_of_mem _ ha)) hfault]
      rfl
    · rw [ha]
      rfl

theorem foldlM_congr {f g : β → α → Except ε β} {as : List α} {b : β}
    (h : ∀ b, ∀ a ∈ as, f b a = g b a) : as.foldlM f b = as.foldlM g b := by
  induction as generalizing b with
  | nil => rfl
  | cons a as ih =>
    rw [List.foldlM_cons, List.foldlM_cons, h b a (List.mem_cons_self ..)]
    exact bind_congr fun b => ih fun b a ha => h b a (List.mem_cons_of_mem _ ha)

/-- A fold has a result if every step has one. -/
theorem exists_foldlM {f : β → α → Except ε β} {as : List α}
    (h : ∀ b, ∀ a ∈ as, ∃ b', f b a = .ok b') (b : β) : ∃ b', as.foldlM f b = .ok b' := by
  induction as generalizing b with
  | nil => exact ⟨b, rfl⟩
  | cons a as ih =>
    obtain ⟨b', hb⟩ := h b a (List.mem_cons_self ..)
    obtain ⟨c, hc⟩ := ih (fun b a ha => h b a (List.mem_cons_of_mem _ ha)) b'
    exact ⟨c, by rw [List.foldlM_cons, hb, ok_bind, hc]⟩

/-- A fold whose steps do not notice a change does not notice it. -/
theorem foldlM_map {f : β → α → Except ε β} {g : β → β} (h : ∀ b a, f (g b) a = (f b a).map g)
    (as : List α) (b : β) : as.foldlM f (g b) = (as.foldlM f b).map g := by
  induction as generalizing b with
  | nil => rfl
  | cons a as ih =>
    rw [List.foldlM_cons, List.foldlM_cons, h, bind_map]
    cases f b a with
    | error e => rfl
    | ok b' => exact ih b'

/-- A fold of steps of which some fail with one fault, whatever was before, fails with it if there is
such a step, and only then. -/
theorem foldlM_eq_error_iff {f : β → α → Except ε β} {P : α → Prop} {fault : ε}
    (h : ∀ b a e, f b a = .error e ↔ P a ∧ e = fault) {as : List α} {b : β} {e : ε} :
    as.foldlM f b = .error e ↔ (∃ a ∈ as, P a) ∧ e = fault := by
  induction as generalizing b with
  | nil => simp
  | cons a as ih =>
    rw [List.foldlM_cons, bind_eq_error_iff, h]
    constructor
    · rintro (⟨ha, he⟩ | ⟨b', -, hb'⟩)
      · exact ⟨⟨a, List.mem_cons_self .., ha⟩, he⟩
      · obtain ⟨⟨a', ha', hp⟩, he⟩ := ih.1 hb'
        exact ⟨⟨a', List.mem_cons_of_mem _ ha', hp⟩, he⟩
    · rintro ⟨⟨a', ha', hp⟩, rfl⟩
      cases hb : f b a with
      | error e' => exact .inl ⟨((h b a e').1 hb).1, rfl⟩
      | ok b' =>
        rcases List.mem_cons.1 ha' with rfl | ha'
        · have := (h b a' e).2 ⟨hp, rfl⟩
          rw [hb] at this
          cases this
        · exact .inr ⟨b', rfl, ih.2 ⟨⟨a', ha', hp⟩, rfl⟩⟩

/-- A fold whose steps succeed or fail whatever was before has a result only if every step has
one. -/
theorem forall_of_foldlM {f : β → α → Except ε β} {P : α → Prop} {as : List α}
    (h : ∀ b b' a, f b a = .ok b' → P a) {b c : β} (hc : as.foldlM f b = .ok c) : ∀ a ∈ as, P a := by
  induction as generalizing b with
  | nil => exact fun a ha => absurd ha List.not_mem_nil
  | cons a as ih =>
    rw [List.foldlM_cons] at hc
    obtain ⟨b', hb, hc⟩ := bind_eq_ok_iff.1 hc
    intro a' ha'
    rcases List.mem_cons.1 ha' with rfl | ha'
    · exact h b b' _ hb
    · exact ih hc a' ha'

/-! ## Lists whose items are related -/

theorem forall₂_comp {R : α → β → Prop} {S : β → γ → Prop} {T : α → γ → Prop}
    (hT : ∀ a b c, R a b → S b c → T a c) {as : List α} {bs : List β} {cs : List γ}
    (h : List.Forall₂ R as bs) (h' : List.Forall₂ S bs cs) : List.Forall₂ T as cs := by
  induction h generalizing cs with
  | nil =>
    cases h'
    exact .nil
  | cons hab _ ih =>
    obtain _ | ⟨hbc, hrest⟩ := h'
    exact .cons (hT _ _ _ hab hbc) (ih hrest)

theorem exists_right_of_mem {R : α → β → Prop} {as : List α} {bs : List β} (h : List.Forall₂ R as bs)
    {a : α} (ha : a ∈ as) : ∃ b ∈ bs, R a b := by
  induction h with
  | nil => cases ha
  | @cons a' b as bs hab _ ih =>
    rcases List.mem_cons.1 ha with rfl | ha
    · exact ⟨b, List.mem_cons_self .., hab⟩
    · obtain ⟨b', hb', hab'⟩ := ih ha
      exact ⟨b', List.mem_cons_of_mem _ hb', hab'⟩

theorem exists_left_of_mem {R : α → β → Prop} {as : List α} {bs : List β} (h : List.Forall₂ R as bs)
    {b : β} (hb : b ∈ bs) : ∃ a ∈ as, R a b :=
  exists_right_of_mem (List.Forall₂.flip (R := flip R) h) hb

/-! ## Two chains of steps -/

/-- Do two chains of steps come to related results, or fail with one fault? -/
inductive Alike (R : α → β → Prop) : Except ε α → Except ε β → Prop
  | ok {a : α} {b : β} : R a b → Alike R (.ok a) (.ok b)
  | error (e : ε) : Alike R (.error e) (.error e)

namespace Alike

variable {δ : Type} {R : α → β → Prop} {S : γ → δ → Prop} {x : Except ε α} {y : Except ε β}

theorem refl {R : α → α → Prop} {x : Except ε α} (h : ∀ a, x = .ok a → R a a) : Alike R x x := by
  cases x with
  | error e => exact .error e
  | ok a => exact .ok (h a rfl)

theorem mono (h : Alike R x y) {T : α → β → Prop} (hRT : ∀ a b, x = .ok a → R a b → T a b) :
    Alike T x y := by
  cases h with
  | ok h => exact .ok (hRT _ _ rfl h)
  | error e => exact .error e

theorem bind (h : Alike R x y) {f : α → Except ε γ} {g : β → Except ε δ}
    (hfg : ∀ a b, x = .ok a → R a b → Alike S (f a) (g b)) : Alike S (x >>= f) (y >>= g) := by
  cases h with
  | ok h => exact hfg _ _ rfl h
  | error e => exact .error e

/-- Chains that end alike and go on with the same end with the same. -/
theorem bind_eq (h : Alike R x y) {f : α → Except ε γ} {g : β → Except ε γ}
    (hfg : ∀ a b, x = .ok a → R a b → g b = f a) : (y >>= g) = (x >>= f) := by
  cases h with
  | ok h => exact hfg _ _ rfl h
  | error e => rfl

/-- One step that two chains begin with. -/
theorem bind_same {x : Except ε α} {f : α → Except ε γ} {g : α → Except ε δ}
    (h : ∀ a, x = .ok a → Alike S (f a) (g a)) : Alike S (x >>= f) (x >>= g) := by
  cases x with
  | error e => exact .error e
  | ok a => exact h a rfl

/-- Lists of results are the same, and have what all results have. -/
theorem mapM_same {A : Type} {P : β → Prop} {f g : A → Except ε β} {as : List A}
    (h : ∀ a ∈ as, Alike (fun b b' => b' = b ∧ P b) (f a) (g a)) :
    Alike (fun bs bs' => bs' = bs ∧ ∀ b ∈ bs, P b) (as.mapM f) (as.mapM g) := by
  induction as with
  | nil => exact .ok ⟨rfl, nofun⟩
  | cons a as ih =>
    rw [List.mapM_cons, List.mapM_cons]
    refine (h a (List.mem_cons_self ..)).bind ?_
    rintro b _ - ⟨rfl, hb⟩
    refine (ih fun a ha => h a (List.mem_cons_of_mem _ ha)).bind ?_
    rintro bs _ - ⟨rfl, hbs⟩
    exact .ok ⟨rfl, List.forall_mem_cons.2 ⟨hb, hbs⟩⟩

/-- Results are related if folds begin with related ones and every step leads from related ones to
related ones. -/
theorem foldlM {A : Type} {f : α → A → Except ε α} {g : β → A → Except ε β} {as : List A}
    (hfg : ∀ a b, ∀ c ∈ as, R a b → Alike R (f a c) (g b c)) {a : α} {b : β} (h : R a b) :
    Alike R (as.foldlM f a) (as.foldlM g b) := by
  induction as generalizing a b with
  | nil => exact .ok h
  | cons c as ih =>
    rw [List.foldlM_cons, List.foldlM_cons]
    exact (hfg a b c (List.mem_cons_self ..) h).bind fun a b _ hab =>
      ih (fun a b c hc => hfg a b c (List.mem_cons_of_mem _ hc)) hab

/-- Where the first chain has a result, the second one has a related one. -/
theorem exists_ok (h : Alike R x y) {a : α} (hx : x = .ok a) : ∃ b, y = .ok b ∧ R a b := by
  cases h with
  | ok h =>
    obtain rfl := Except.ok.inj hx
    exact ⟨_, rfl, h⟩
  | error e => cases hx

end Alike

end Listing
