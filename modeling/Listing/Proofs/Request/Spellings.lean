import Listing.Proofs.Codec.QueryString
import Listing.Proofs.Registry
import Listing.Proofs.Request.Selection

/-!
# Spellings of lists

A request lists names as one text, as a list, or as the values of a map (`Value.Spells`). All of
them are read alike: `spellings_agree`. In a request for fields such a list may stand under the key
of a relation, at any depth (`Value.Respelled`). A plan for columns has them in the order of the list
(`Selector.fieldPlan_columns`).
-/

namespace Listing

/-! ## Names in texts -/

/-- Can a text be an item of a list: is it not empty, without white space at its ends, and without
the separator? -/
structure Text.IsItem (separator : Char) (name : String) : Prop where
  nonempty : name ≠ ""
  stripped : strip name = name
  apart : separator ∉ name.toList

namespace Text

variable {separator : Char} {names : List String}

theorem IsItem.not_blank {name : String} (h : IsItem separator name) :
    isBlankText name = false := by
  rw [← Bool.not_eq_true]
  intro hblank
  have hdrop : name.toList.dropWhile isBlank = [] :=
    List.dropWhile_eq_nil_iff.2 (List.all_eq_true.1 hblank)
  refine h.nonempty ?_
  rw [← h.stripped, strip, trim, hdrop]
  rfl

/-- **The pieces of a joined text are the items.** -/
theorem pieces_joined (h : ∀ name ∈ names, IsItem separator name) :
    ((splitOn (String.singleton separator) (joined (String.singleton separator) names)).map
      strip).filter (fun piece => !piece.toList.isEmpty) = names := by
  by_cases hne : names = []
  · subst hne
    simp [joined, splitOn, splitFrom, strip, trim]
  · rw [splitOn_joined hne fun name hname => (h name hname).apart,
      List.map_congr_left fun name hname => (h name hname).stripped, List.map_id',
      List.filter_eq_self]
    intro name hname
    simpa using (h name hname).nonempty

end Text

/-- **The items between commas** are those that were joined. -/
theorem commaList_joined {names : List String} (h : ∀ name ∈ names, Text.IsItem ',' name) :
    commaList (joined (String.singleton ',') names) = names := by
  have hcomma : String.singleton ',' = "," := by decide
  have hpieces := Text.pieces_joined h
  rwa [hcomma] at hpieces ⊢

theorem splitList_joined {separator : Char} {names : List String}
    (h : ∀ name ∈ names, Text.IsItem separator name) :
    splitList (.text (String.singleton separator)) (joined (String.singleton separator) names) =
      .ok names := by
  have hseparator : (String.singleton separator).toList.isEmpty = false := by
    rw [String.toList_singleton]
    rfl
  simp only [splitList, hseparator, Bool.false_eq_true, if_false, Text.pieces_joined h]

/-! ## Spellings -/

namespace Value

/-- Does a value spell a list of names: as one text, as a list, or as the values of a map? -/
inductive Spells (separator : Char) (names : List String) : Value → Prop
  | joined : Spells separator names (.text (joined (String.singleton separator) names))
  | list : Spells separator names (.list (names.map .text))
  | map {es : Entries} (hvalues : es.map Prod.snd = names.map .text) :
    Spells separator names (.map es)

/-- Are the keys positions, if the value is a map? -/
def IsPositional (v : Value) : Prop := ∀ es, v = .map es → ∀ e ∈ es, e.1.isPosition = true

/-- Are two requests for fields the same up to the spellings of lists of names? Such a list may be
the whole request, or what is requested under a key that is no position. -/
inductive Respelled : Value → Value → Prop
  | names {names : List String} {v w : Value} (hnames : ∀ name ∈ names, Text.IsItem ',' name)
    (hv : Spells ',' names v) (hw : Spells ',' names w) (hpv : v.IsPositional)
    (hpw : w.IsPositional) : Respelled v w
  | under {v w key x y : Value} {before after : List (Value × Value)}
    (hv : v.requested? = some (before ++ (key, x) :: after))
    (hw : w.requested? = some (before ++ (key, y) :: after)) (hkey : key.isPosition = false)
    (hxy : Respelled x y) : Respelled v w
  | trans {u v w : Value} (huv : Respelled u v) (hvw : Respelled v w) : Respelled u w

variable {names : List String} {v w : Value}

theorem positioned_texts (i : Nat) (names : List String) :
    (positioned i (names.map .text)).map Prod.snd = names.map .text ∧
      ∀ p ∈ positioned i (names.map .text), p.1.isPosition = true := by
  induction names generalizing i with
  | nil => exact ⟨rfl, nofun⟩
  | cons name names ih =>
    obtain ⟨hvalues, hkeys⟩ := ih (i + 1)
    rw [List.map_cons, positioned_cons (by simp), List.map_cons, hvalues, List.forall_mem_cons]
    exact ⟨rfl, rfl, hkeys⟩

/-- A request that spells names asks for them under positions. -/
theorem Spells.exists_requested (hnames : ∀ name ∈ names, Text.IsItem ',' name)
    (hv : Spells ',' names v) (hpositional : v.IsPositional) :
    ∃ ps, v.requested? = some ps ∧ ps.map Prod.snd = names.map .text ∧
      ∀ p ∈ ps, p.1.isPosition = true := by
  cases hv with
  | joined =>
    refine ⟨positioned 0 (names.map .text), ?_, positioned_texts 0 names⟩
    exact congrArg (fun names => some (positioned 0 (names.map .text))) (commaList_joined hnames)
  | list => exact ⟨_, rfl, positioned_texts 0 names⟩
  | map hvalues => exact ⟨_, rfl, hvalues, hpositional _ rfl⟩

/-- Only an empty list of names is spelled by what counts as nothing. -/
theorem Spells.nil_of_isEmpty {separator : Char} (hv : Spells separator names v)
    (hnames : ∀ name ∈ names, Text.IsItem separator name) (hempty : v.isEmpty = true) :
    names = [] := by
  cases names with
  | nil => rfl
  | cons name names =>
    have hname := hnames name (List.mem_cons_self ..)
    cases hv with
    | joined =>
      rw [isEmpty, Text.isBlankText, List.all_eq_true] at hempty
      have hblank : Text.isBlankText name = true := List.all_eq_true.2 fun c hc =>
        hempty c (Text.subset_toList_joined separator name names hc)
      cases hblank.symm.trans hname.not_blank
    | list => cases hempty
    | map hvalues =>
      obtain rfl := List.isEmpty_iff.1 hempty
      cases hvalues

end Value

namespace Selector

variable {fields : Value} {path : List Value} {ps qs : List (Value × Value)}

theorem planEntries_append (fields : Value) (path : List Value) (ps qs : List (Value × Value)) :
    planEntries fields path (ps ++ qs) =
      (do return (← planEntries fields path ps) ++ (← planEntries fields path qs)) := by
  induction ps with
  | nil =>
    cases h : planEntries fields path qs <;> simp [planEntries, h]
  | cons p ps ih =>
    obtain ⟨key, v⟩ := p
    rw [List.cons_append, planEntries, planEntries, ih]
    split <;> simp only [bind_assoc, pure_bind, List.cons_append]

theorem planItems_eq (fields : Value) (path : List Value) (i j : Nat) (vs : List Value) :
    planItems fields path i vs = planEntries fields path (Value.positioned j vs) := by
  induction vs generalizing i j with
  | nil => rfl
  | cons v vs ih =>
    rcases planItems_cons fields path i v vs with ⟨es, rfl, hplan⟩ | ⟨hv, hplan⟩
    · rw [hplan, ih i j, Value.positioned, planEntries_append]
    · rw [hplan, Value.positioned_cons hv, planEntries, if_pos (Value.isPosition_int j),
        ih (i + 1) (j + 1)]

theorem planEntries_positions (fields : Value) (path : List Value)
    (h : ∀ p ∈ ps, p.1.isPosition = true) :
    planEntries fields path ps = (ps.map Prod.snd).mapM (fieldStep fields path) := by
  induction ps with
  | nil => rfl
  | cons p ps ih =>
    obtain ⟨key, v⟩ := p
    rw [List.forall_mem_cons] at h
    rw [planEntries, if_pos h.1, ih h.2, List.map_cons, List.mapM_cons]

/-- **A value is planned by the keys and values that it asks for.** -/
theorem planValue_eq (fields : Value) (path : List Value) {v : Value}
    (hv : v.requested? = some ps) : planValue fields path v = (do
      let _ ← location path
      planEntries fields path ps) := by
  cases v with
  | text s =>
    obtain rfl := Option.some.inj hv
    rw [planValue]
    refine bind_congr fun _ => ?_
    obtain ⟨hvalues, hkeys⟩ := Value.positioned_texts 0 (commaList s)
    rw [planEntries_positions fields path hkeys, hvalues, List.mapM_map]
    rfl
  | map es =>
    obtain rfl := Option.some.inj hv
    rfl
  | list vs | tuple vs | set vs =>
    obtain rfl := Option.some.inj hv
    rw [planValue]
    exact bind_congr fun _ => planItems_eq fields path 0 0 vs
  | _ => cases hv

/-- Do two keys with values ask for the same: for one value under positions, or for values that are
planned alike under one key? -/
def AsksAlike (p q : Value × Value) : Prop :=
  (p.1.isPosition = true ∧ q.1.isPosition = true ∧ p.2 = q.2) ∨
    (p.1 = q.1 ∧ p.1.isPosition = false ∧
      ∀ fields path, planValue fields path p.2 = planValue fields path q.2)

theorem AsksAlike.refl (p : Value × Value) : AsksAlike p p := by
  cases hp : p.1.isPosition with
  | true => exact .inl ⟨hp, hp, rfl⟩
  | false => exact .inr ⟨rfl, hp, fun _ _ => rfl⟩

theorem AsksAlike.trans {p q r : Value × Value} (hpq : AsksAlike p q) (hqr : AsksAlike q r) :
    AsksAlike p r := by
  rcases hpq with ⟨hp, hq, hv⟩ | ⟨hkey, hp, hplan⟩
  · rcases hqr with ⟨-, hr, hv'⟩ | ⟨-, hq', -⟩
    · exact .inl ⟨hp, hr, hv.trans hv'⟩
    · cases hq.symm.trans hq'
  · rcases hqr with ⟨hq, -, -⟩ | ⟨hkey', -, hplan'⟩
    · rw [← hkey, hp] at hq
      cases hq
    · exact .inr ⟨hkey.trans hkey', hp,
        fun fields path => (hplan fields path).trans (hplan' fields path)⟩

theorem forall₂_trans {rs : List (Value × Value)} (h : List.Forall₂ AsksAlike ps qs)
    (h' : List.Forall₂ AsksAlike qs rs) : List.Forall₂ AsksAlike ps rs := by
  induction h generalizing rs with
  | nil => exact h'
  | cons hpq _ ih =>
    cases h' with
    | cons hqr hrest => exact .cons (hpq.trans hqr) (ih hrest)

theorem planEntries_congr (h : List.Forall₂ AsksAlike ps qs) (fields : Value) (path : List Value) :
    planEntries fields path ps = planEntries fields path qs := by
  induction h with
  | nil => rfl
  | @cons p q ps qs hpq _ ih =>
    obtain ⟨key, v⟩ := p
    obtain ⟨key', w⟩ := q
    rw [planEntries, planEntries, ih]
    rcases hpq with ⟨hp, hq, rfl⟩ | ⟨rfl, hp, hplan⟩
    · rw [if_pos hp, if_pos hq]
    · simp only [hp, Bool.false_eq_true, if_false, hplan]

theorem asksAlike_under {key x y : Value} (before after : List (Value × Value))
    (hkey : key.isPosition = false)
    (hxy : ∀ fields path, planValue fields path x = planValue fields path y) :
    List.Forall₂ AsksAlike (before ++ (key, x) :: after) (before ++ (key, y) :: after) :=
  List.rel_append (List.forall₂_same.2 fun p _ => .refl p)
    (.cons (.inr ⟨rfl, hkey, hxy⟩) (List.forall₂_same.2 fun p _ => .refl p))

theorem asksAlike_positions (hvalues : ps.map Prod.snd = qs.map Prod.snd)
    (hps : ∀ p ∈ ps, p.1.isPosition = true) (hqs : ∀ q ∈ qs, q.1.isPosition = true) :
    List.Forall₂ AsksAlike ps qs := by
  induction ps generalizing qs with
  | nil =>
    obtain rfl := List.map_eq_nil_iff.1 hvalues.symm
    exact .nil
  | cons p ps ih =>
    obtain ⟨q, qs, rfl, hq, hrest⟩ := List.map_eq_cons_iff.1 hvalues.symm
    rw [List.forall_mem_cons] at hps hqs
    exact .cons (.inl ⟨hps.1, hqs.1, hq.symm⟩) (ih hrest.symm hps.2 hqs.2)

/-- **Requests that differ in spellings ask for the same.** -/
theorem exists_asksAlike {v w : Value} (h : v.Respelled w) : ∃ ps qs, v.requested? = some ps ∧
    w.requested? = some qs ∧ List.Forall₂ AsksAlike ps qs := by
  induction h with
  | names hnames hv hw hpv hpw =>
    obtain ⟨ps, hps, hpsValues, hpsKeys⟩ := hv.exists_requested hnames hpv
    obtain ⟨qs, hqs, hqsValues, hqsKeys⟩ := hw.exists_requested hnames hpw
    exact ⟨ps, qs, hps, hqs, asksAlike_positions (hpsValues.trans hqsValues.symm) hpsKeys hqsKeys⟩
  | under hv hw hkey _ ih =>
    obtain ⟨ps, qs, hps, hqs, halike⟩ := ih
    refine ⟨_, _, hv, hw, asksAlike_under _ _ hkey fun fields path => ?_⟩
    rw [planValue_eq fields path hps, planValue_eq fields path hqs]
    simp only [planEntries_congr halike]
  | trans _ _ ihv ihw =>
    obtain ⟨ps, qs, hps, hqs, halike⟩ := ihv
    obtain ⟨qs', rs, hqs', hrs, halike'⟩ := ihw
    obtain rfl := Option.some.inj (hqs.symm.trans hqs')
    exact ⟨ps, rs, hps, hrs, forall₂_trans halike halike'⟩

/-- What stands under the own name is planned alike, and what is left asks for the same. -/
theorem splitOwn_congr (h : List.Forall₂ AsksAlike ps qs) (own : Registry Field) (keyword : Value)
    (name : String) :
    Alike (fun r r' => r'.1 = r.1 ∧ List.Forall₂ AsksAlike r.2 r'.2)
      (splitOwn own keyword (.text name) ps) (splitOwn own keyword (.text name) qs) := by
  have hposition : ∀ key : Value, key.isPosition = true → key.equal (.text name) = false := by
    intro key hkey
    rw [← Bool.not_eq_true, Value.equal_text]
    rintro rfl
    cases hkey
  induction h with
  | nil => exact .ok ⟨rfl, .nil⟩
  | @cons p q ps qs hpq _ ih =>
    obtain ⟨key, v⟩ := p
    obtain ⟨key', w⟩ := q
    rw [splitOwn, splitOwn, Value.equal?_text, Value.equal?_text, ok_bind, ok_bind]
    have hrest : Alike (fun r r' => r'.1 = r.1 ∧ List.Forall₂ AsksAlike r.2 r'.2)
        (splitOwn own keyword (.text name) ps >>= fun r => .ok (r.1, (key, v) :: r.2))
        (splitOwn own keyword (.text name) qs >>= fun r => .ok (r.1, (key', w) :: r.2)) :=
      ih.bind fun r r' _ hr => .ok ⟨hr.1, .cons hpq hr.2⟩
    rcases hpq with ⟨hp, hq, rfl⟩ | ⟨rfl, hp, hplan⟩
    · rw [hposition key hp, hposition key' hq]
      exact hrest
    · cases hkey : key.equal (.text name) with
      | false => exact hrest
      | true =>
        rw [if_pos rfl, if_pos rfl, hplan]
        by_cases hempty : own.isEmpty = true
        · rw [if_pos hempty, if_pos hempty]
          exact .bind_same fun _ _ => .error _
        · rw [if_neg hempty, if_neg hempty]
          refine .bind_same fun steps _ => ?_
          exact ih.bind fun r r' _ hr => .ok ⟨by rw [hr.1], hr.2⟩

theorem requestedFields_of_requested (s : Selector) {v : Value} (hv : v.requested? = some ps) :
    s.requestedFields v = .ok ps := by
  cases v with
  | text | list | tuple | set | map =>
    obtain rfl := Option.some.inj hv
    rfl
  | _ => cases hv

/-- The plan for keys and values where the own name is this value. -/
def planUnder (s : Selector) (requested : List (Value × Value)) (name : Value) :
    Except Error (List FieldStep) := do
  let keyword := s.settings.fieldsKeyword
  match name with
  | .null =>
    let _ ← location [keyword]
    planEntries (s.fields.toMap Field.toValue) [keyword] requested
  | name =>
    let r ← splitOwn s.own keyword name requested
    let _ ← location [keyword]
    return r.1 ++ (← planEntries (s.groups.toMap Field.toValue) [keyword] r.2)

theorem fieldPlan_of_requested {s : Selector} {sourceName : Except Error Value} {params : Entries}
    {v : Value} (hparams : params.parameter s.settings.fieldsKeyword = .ok v)
    (hv : v.requested? = some ps) :
    s.fieldPlan sourceName params = s.ownName sourceName >>= s.planUnder ps := by
  unfold fieldPlan
  simp only [hparams, ok_bind]
  split
  · cases hv
  · rw [requestedFields_of_requested s hv, ok_bind]
    refine bind_congr fun name => ?_
    cases name <;> rfl

theorem ownName_cases (s : Selector) (sourceName : Except Error String) {name : Value}
    (h : s.ownName (sourceName.map .text) = .ok name) : name = .null ∨ ∃ t, name = .text t := by
  unfold ownName at h
  split at h
  · obtain ⟨t, -, rfl⟩ := map_eq_ok_iff.1 h
    exact .inr ⟨t, rfl⟩
  · obtain rfl := Except.ok.inj h
    split
    · exact .inl rfl
    · exact .inr ⟨_, rfl⟩
  · exact .inl (Except.ok.inj h).symm

/-- **Requests that differ in spellings have one plan.** -/
theorem fieldPlan_respelled (s : Selector) (sourceName : Except Error String)
    {params params' : Entries} {v w : Value} (h : v.Respelled w)
    (hv : params.parameter s.settings.fieldsKeyword = .ok v)
    (hw : params'.parameter s.settings.fieldsKeyword = .ok w) :
    s.fieldPlan (sourceName.map .text) params' = s.fieldPlan (sourceName.map .text) params := by
  obtain ⟨ps, qs, hps, hqs, halike⟩ := exists_asksAlike h
  rw [fieldPlan_of_requested hv hps, fieldPlan_of_requested hw hqs]
  cases hname : s.ownName (sourceName.map .text) with
  | error fault => rfl
  | ok name =>
    rw [ok_bind, ok_bind]
    unfold planUnder
    rcases ownName_cases s sourceName hname with rfl | ⟨t, rfl⟩
    · simp only [planEntries_congr halike]
    · refine (splitOwn_congr halike s.own s.settings.fieldsKeyword t).bind_eq fun r r' _ hr => ?_
      rw [hr.1, planEntries_congr hr.2]

/-- **A request for columns has a plan in the order of their names**, however it spells them. -/
theorem fieldPlan_columns {s : Selector} {sourceName : Except Error Value} {params : Entries}
    {keyword : String} {names : List String} {v : Value} {column : String → String}
    (hnamed : s.settings.fieldsKeyword = .text keyword) (hown : s.ownName sourceName = .ok .null)
    (hv : params.parameter (.text keyword) = .ok v) (hspells : Value.Spells ',' names v)
    (hpositional : v.IsPositional) (hnames : ∀ name ∈ names, Text.IsItem ',' name)
    (hdeclared : ∀ name ∈ names, s.fields.get? name = some (.column (.text (column name)))) :
    s.fieldPlan sourceName params =
      .ok (columnPlan (names.map fun name => (name, column name))) := by
  obtain ⟨ps, hps, hvalues, hkeys⟩ := hspells.exists_requested hnames hpositional
  have hstep : ∀ name ∈ names,
      fieldStep (s.fields.toMap Field.toValue) [.text keyword] (.text name) =
        .ok (.field name (Field.column (.text (column name))).toValue) := by
    intro name hname
    have hentry : declared (s.fields.toMap Field.toValue) (.text name) =
        .ok (Field.column (.text (column name))).toValue := by
      rw [Registry.toMap, declared, Registry.get?_toMap, hdeclared name hname]
      rfl
    unfold fieldStep
    simp only [Value.stripped, (hnames name hname).stripped, hentry, ok_bind]
    rfl
  have hplan : planEntries (s.fields.toMap Field.toValue) [.text keyword] ps =
      .ok (columnPlan (names.map fun name => (name, column name))) := by
    rw [planEntries_positions _ _ hkeys, hvalues, mapM_eq_ok_iff, columnPlan, List.map_map,
      List.forall₂_map_left_iff, List.forall₂_map_right_iff, List.forall₂_same]
    exact hstep
  rw [fieldPlan_of_requested (hnamed ▸ hv) hps, hown, ok_bind]
  show location [s.settings.fieldsKeyword] >>= (fun _ => planEntries _ [s.settings.fieldsKeyword] ps) = _
  rw [hnamed]
  exact hplan

/-! ## Includes -/

theorem requestedInclusions_spells (s : Selector) {names : List String} {v : Value}
    (hnames : ∀ name ∈ names, Text.IsItem ',' name) (hv : v.Spells ',' names) :
    s.requestedInclusions v = .ok (names.map .text) := by
  cases hv with
  | joined =>
    exact congrArg (fun names => Except.ok (names.map Value.text)) (commaList_joined hnames)
  | list => rfl
  | map hvalues => exact congrArg Except.ok hvalues

/-- **Includes are planned name by name**, however they are spelled. -/
theorem inclusionPlan_spells {s : Selector} {params : Entries} {names : List String} {v : Value}
    (hnames : ∀ name ∈ names, Text.IsItem ',' name) (hv : v.Spells ',' names)
    (hparams : params.parameter s.settings.includeKeyword = .ok v) :
    s.inclusionPlan params = (names.map Value.text).mapM s.inclusionStep := by
  have hrequested := requestedInclusions_spells s hnames hv
  unfold inclusionPlan
  rw [hparams, ok_bind]
  cases hv <;> simp only [hrequested, ok_bind]

end Selector

/-! ## Orders -/

theorem Sorter.tokens_spells {s : Sorter} {separator : Char}
    (hseparator : s.settings.separator = .text (String.singleton separator)) {names : List String}
    {v : Value} (hnames : ∀ name ∈ names, Text.IsItem separator name)
    (hv : v.Spells separator names) : s.tokens v = .ok names := by
  have htexts : s.tokensOf (names.map .text) = .ok names := by
    have hall : (names.map Value.text).mapM Value.text? = some names := by
      clear hnames hv
      induction names with
      | nil => rfl
      | cons name names ih => simp [List.mapM_cons, ih, Value.text?]
    unfold tokensOf
    simp only [hall]
    rw [List.map_congr_left fun name hname => (hnames name hname).stripped, List.map_id',
      List.filter_eq_self.2]
    intro name hname
    simpa using (hnames name hname).nonempty
  cases hv with
  | joined =>
    show splitList s.settings.separator _ = _
    rw [hseparator, splitList_joined hnames]
  | list => exact htexts
  | map hvalues =>
    show s.tokensOf _ = _
    rw [Entries.values, hvalues, htexts]

/-- **Orders are those of the names**, however they are spelled. -/
theorem Sorter.orders_spells {s : Sorter} {separator : Char}
    (hseparator : s.settings.separator = .text (String.singleton separator)) {names : List String}
    {v w : Value} (hnames : ∀ name ∈ names, Text.IsItem separator name)
    (hv : v.Spells separator names) (hw : w.Spells separator names) : s.orders w = s.orders v := by
  unfold orders
  simp only [tokens_spells hseparator hnames hv, tokens_spells hseparator hnames hw, pure_eq_ok,
    ok_bind]
  by_cases hnil : names = []
  · subst hnil
    rw [ite_self, ite_self]
  · rw [if_neg fun hempty => hnil (hw.nil_of_isEmpty hnames hempty),
      if_neg fun hempty => hnil (hv.nil_of_isEmpty hnames hempty)]

/-! ## Members -/

theorem Filter.members_spells {names : List String} {name v : Value}
    (hnames : ∀ name ∈ names, Text.IsItem ',' name) (hv : v.Spells ',' names) :
    members name v = .ok (names.map .text) := by
  cases hv with
  | joined =>
    exact congrArg (fun names => Except.ok (names.map Value.text)) (commaList_joined hnames)
  | list => rfl
  | map hvalues => exact congrArg Except.ok hvalues

theorem Filter.script_spells {names : List String} {target name v w : Value}
    (hnames : ∀ name ∈ names, Text.IsItem ',' name) (hv : v.Spells ',' names)
    (hw : w.Spells ',' names) (relations : Bool) :
    (Filter.member target).script relations name w =
      (Filter.member target).script relations name v := by
  have hcall : ∀ t, (Filter.member target).callOn t name w =
      (Filter.member target).callOn t name v := fun t => by
    simp only [callOn, members_spells hnames hv, members_spells hnames hw]
  simp only [script, targetScript, scriptOn, hcall]

/-! ## All requests -/

/-- **The spellings of a list of names are read alike.** Requests for fields that differ in
spellings only, at the top level and under relations, have one plan or are refused for one reason,
and so have requests for includes. Spellings ask for one order, and a membership filter makes the
same calls for them. -/
theorem spellings_agree :
    (∀ (s : Selector) (sourceName : Except Error String) (params params' : Entries) (v w : Value),
      v.Respelled w → params.parameter s.settings.fieldsKeyword = .ok v →
      params'.parameter s.settings.fieldsKeyword = .ok w →
      s.fieldPlan (sourceName.map .text) params' = s.fieldPlan (sourceName.map .text) params) ∧
    (∀ (s : Selector) (params params' : Entries) (names : List String) (v w : Value),
      (∀ name ∈ names, Text.IsItem ',' name) → v.Spells ',' names → w.Spells ',' names →
      params.parameter s.settings.includeKeyword = .ok v →
      params'.parameter s.settings.includeKeyword = .ok w →
      s.inclusionPlan params' = s.inclusionPlan params) ∧
    (∀ (s : Sorter) (separator : Char) (names : List String) (v w : Value),
      s.settings.separator = .text (String.singleton separator) →
      (∀ name ∈ names, Text.IsItem separator name) → v.Spells separator names →
      w.Spells separator names → s.orders w = s.orders v) ∧
    ∀ (target name : Value) (names : List String) (v w : Value) (relations : Bool),
      (∀ name ∈ names, Text.IsItem ',' name) → v.Spells ',' names → w.Spells ',' names →
      (Filter.member target).script relations name w =
        (Filter.member target).script relations name v := by
  refine ⟨?fields, ?includes, ?orders, ?members⟩
  case fields =>
    intro s sourceName params params' v w h hv hw
    exact s.fieldPlan_respelled sourceName h hv hw
  case includes =>
    intro s params params' names v w hnames hv hw hparams hparams'
    rw [Selector.inclusionPlan_spells hnames hv hparams,
      Selector.inclusionPlan_spells hnames hw hparams']
  case orders =>
    intro s separator names v w hseparator hnames hv hw
    exact Sorter.orders_spells hseparator hnames hv hw
  case members =>
    intro target name names v w relations hnames hv hw
    exact Filter.script_spells hnames hv hw relations

/-- Two names. -/
def twoNames : List String := ["id", "e-mail"]

theorem isItem_twoNames {separator : Char} (h : ∀ name ∈ twoNames, separator ∉ name.toList) :
    ∀ name ∈ twoNames, Text.IsItem separator name := by
  have hnames : ∀ name ∈ twoNames, name ≠ "" ∧ Text.strip name = name := by decide +kernel
  exact fun name hname => ⟨(hnames name hname).1, (hnames name hname).2, h name hname⟩

/-- The fields of users, two of which are under the name of a relation, and an order of them. -/
def ofUsers : Selector where
  fields := [("id", .column (.text "id")), ("owner", .group (.text "owner") (.map
    (twoNames.map fun name => (.text name, (Field.column (.text name)).toValue))))]
  inclusions := [("id", .relation (.text "ids") .null), ("e-mail", .relation (.text "mails") .null)]

/-- Names between semicolons. -/
def bySemicolon : Sorter where
  settings := { multisort := .bool true, separator := .text ";" }
  attributes := [("id", .make (.text "id") .null .null)]

/-- Two names under the name of a relation, for includes, for orders and for members. -/
theorem spellings_agree_twoNames :
    (∀ name ∈ twoNames, Text.IsItem ',' name) ∧ (∀ name ∈ twoNames, Text.IsItem ';' name) ∧
    (ofUsers.fieldPlan (.ok (.text "self")) [(.text "fields", .map [(.text "owner",
        .map [(.int 7, .text "id"), (.int 3, .text "e-mail")])])] =
      ofUsers.fieldPlan (.ok (.text "self"))
        [(.text "fields", .map [(.text "owner", .text "id,e-mail")])]) ∧
    ofUsers.inclusionPlan [(.text "include", .list (twoNames.map .text))] =
      ofUsers.inclusionPlan [(.text "include", .text "id,e-mail")] ∧
    bySemicolon.orders (.map [(.text "a", .text "id"), (.text "b", .text "e-mail")]) =
      bySemicolon.orders (.text "id;e-mail") ∧
    (Filter.member (.text "id")).script false (.text "id") (.list (twoNames.map .text)) =
      (Filter.member (.text "id")).script false (.text "id") (.text "id,e-mail") := by
  have hcomma : ∀ name ∈ twoNames, Text.IsItem ',' name := isItem_twoNames (by decide)
  have hsemicolon : ∀ name ∈ twoNames, Text.IsItem ';' name := isItem_twoNames (by decide)
  have hjoined : joined (String.singleton ',') twoNames = "id,e-mail" ∧
      joined (String.singleton ';') twoNames = "id;e-mail" := by decide +kernel
  have htext : (Value.text "id,e-mail").Spells ',' twoNames := hjoined.1 ▸ .joined
  refine ⟨hcomma, hsemicolon, ?fields, ?includes, ?orders, ?members⟩
  case fields =>
    have hmap : (Value.map [(.int 7, .text "id"), (.int 3, .text "e-mail")]).Spells ',' twoNames :=
      .map rfl
    have hnames : (Value.text "id,e-mail").Respelled
        (.map [(.int 7, .text "id"), (.int 3, .text "e-mail")]) := by
      refine .names hcomma htext hmap nofun ?_
      rintro es ⟨⟩
      decide
    have howner : (Value.map [(.text "owner", .text "id,e-mail")]).Respelled
        (.map [(.text "owner", .map [(.int 7, .text "id"), (.int 3, .text "e-mail")])]) :=
      @Value.Respelled.under _ _ (.text "owner") _ _ [] [] rfl rfl rfl hnames
    exact spellings_agree.1 ofUsers (.ok "self") _ _ _ _ howner (by with_unfolding_all rfl)
      (by with_unfolding_all rfl)
  case includes =>
    exact spellings_agree.2.1 ofUsers _ _ _ _ _ hcomma htext .list (by with_unfolding_all rfl)
      (by with_unfolding_all rfl)
  case orders =>
    exact spellings_agree.2.2.1 bySemicolon ';' twoNames _ _ rfl hsemicolon (hjoined.2 ▸ .joined)
      (.map rfl)
  case members =>
    exact spellings_agree.2.2.2 _ _ twoNames _ _ false hcomma htext .list

end Listing
