import Listing.Proofs.Request.Paging
import Listing.Proofs.Value.Integer

/-!
# What requests may say of pages

A request pages by what stands under the keyword of paging, or by all its parameters where there is no
such keyword (`Pagination.Reads`). A page size between the bounds, a page number from one on and any
cursor are taken as they are, what is left out has its default, and everything else is refused as a
fault of the request: `Pagination.state_outcomes`. The exceptions are texts of too many digits, which
count as integers and cannot be read, and bounds that no message can write.
-/

namespace Listing.Pagination

/-- What parameters hold under a keyword; null stands for nothing. -/
def given (params : Entries) (keyword : Value) : Value := (Entries.get? params keyword).getD .null

/-- Are the keywords texts, or is there none for the whole, and are the bounds of page sizes these
integers? -/
structure IsTyped (p : Pagination) (least greatest : Int) : Prop where
  keyword : p.settings.keyword = .null ∨ ∃ s, p.settings.keyword = .text s
  page : ∃ s, p.settings.pageKeyword = .text s
  cursor : ∃ s, p.settings.cursorKeyword = .text s
  perPage : ∃ s, p.settings.perPageKeyword = .text s
  least : p.settings.least = .int least
  greatest : p.settings.greatest = .int greatest

/-- Are these the parameters that a request pages by? There are none if nothing, or nothing but an
empty value, stands under the keyword of paging. -/
inductive Reads (p : Pagination) (params : Entries) : Option Entries → Prop
  | whole (hkeyword : p.settings.keyword = .null) : Reads p params (some params)
  | absent {s : String} (hkeyword : p.settings.keyword = .text s)
    (hempty : (given params (.text s)).isEmpty = true) : Reads p params none
  | bucket {s : String} {es : Entries} (hkeyword : p.settings.keyword = .text s)
    (hgiven : given params (.text s) = .map es) (hne : es ≠ []) : Reads p params (some es)

/-- Is it the page size that parameters say: an integer between the bounds, or the standard one where
they say nothing? -/
def SaysSize (p : Pagination) (least greatest : Int) (params : Entries) (size : Value) : Prop :=
  given params p.settings.perPageKeyword = .null ∧ size = p.settings.standard ∨
  ∃ n, (given params p.settings.perPageKeyword).Writes n ∧ (least ≤ n ∧ n ≤ greatest) ∧ size = .int n

/-- Is it the page number that parameters say: an integer from one on, or none? -/
def SaysPage (p : Pagination) (params : Entries) (page : Option Int) : Prop :=
  given params p.settings.pageKeyword = .null ∧ page = none ∨
  ∃ n, (given params p.settings.pageKeyword).Writes n ∧ 1 ≤ n ∧ page = some n

/-- Is it the state that parameters say? A cursor that is empty is none. -/
structure Says (p : Pagination) (least greatest : Int) (params : Entries) (state : PagingState) :
    Prop where
  size : p.SaysSize least greatest params state.perPage
  page : p.SaysPage params state.page
  cursor : state.cursor = if (given params p.settings.cursorKeyword).isEmpty then .null
    else given params p.settings.cursorKeyword

/-- Does a text of too many digits stand where an integer is read, or would a message have to write
bounds that have no text? -/
inductive Unreadable (p : Pagination) (least greatest : Int) (params : Entries) : Prop
  | size (h : (given params p.settings.perPageKeyword).Overlong)
  | bounds {n : Int} (hn : (given params p.settings.perPageKeyword).Writes n)
    (hout : ¬ (least ≤ n ∧ n ≤ greatest))
    (htext : (Value.int least).hasText = false ∨ (Value.int greatest).hasText = false)
  | page {size : Value} (hsize : p.SaysSize least greatest params size)
    (h : (given params p.settings.pageKeyword).Overlong)

/-! ## Integers -/

theorem integer?_of_ne_null {keyword raw : Value} (h : raw ≠ .null) : integer? keyword raw =
    if raw.isIntegerToken then raw.toInt.map some else .error (.query (.integerRequired keyword)) := by
  cases raw with
  | null => exact absurd rfl h
  | _ => rfl

theorem integer?_eq_ok_iff {keyword raw : Value} {given : Option Int} :
    integer? keyword raw = .ok given ↔
      raw = .null ∧ given = none ∨ ∃ n, raw.Writes n ∧ given = some n := by
  by_cases hnull : raw = .null
  · subst hnull
    have hwrites : ∀ n, ¬ Value.null.Writes n := nofun
    simp [integer?, hwrites, eq_comm]
  rw [integer?_of_ne_null hnull]
  by_cases htoken : raw.isIntegerToken = true
  · rw [if_pos htoken]
    rcases Value.isIntegerToken_iff.1 htoken with ⟨n, hn⟩ | hlong
    · rw [hn.toInt, ok_map, Except.ok.injEq]
      constructor
      · exact fun h => .inr ⟨n, hn, h.symm⟩
      · rintro (⟨h, -⟩ | ⟨m, hm, rfl⟩)
        · exact absurd h hnull
        · rw [hn.unique hm]
    · simp [hlong.toInt, hlong.not_writes, hnull]
  · have hwrites : ∀ n, ¬ raw.Writes n := fun n hn => htoken hn.isIntegerToken
    simp [htoken, hwrites, hnull]

theorem integer?_eq_error_iff {keyword raw : Value} {e : Error} :
    integer? keyword raw = .error e ↔ raw.Overlong ∧ e = .badValue ∨
      (raw ≠ .null ∧ raw.isIntegerToken = false) ∧ e = .query (.integerRequired keyword) := by
  by_cases hnull : raw = .null
  · subst hnull
    have hlong : ¬ Value.null.Overlong := fun ⟨_, h, _⟩ => nomatch h
    simp [integer?, hlong]
  rw [integer?_of_ne_null hnull]
  by_cases htoken : raw.isIntegerToken = true
  · rw [if_pos htoken]
    rcases Value.isIntegerToken_iff.1 htoken with ⟨n, hn⟩ | hlong
    · have hlong : ¬ raw.Overlong := fun hlong => hlong.not_writes hn
      simp [hn.toInt, hlong, htoken]
    · simp [hlong.toInt, hlong, htoken, eq_comm]
  · have hlong : ¬ raw.Overlong := fun hlong => htoken hlong.isIntegerToken
    simp [htoken, hlong, hnull, eq_comm]

/-- An integer of a request that has to be valid, with a default where nothing is given. -/
def checked {α : Type} (keyword raw : Value) (default : α) (valid : Int → Prop) [DecidablePred valid]
    (result : Int → α) (fault : QueryFault) : Except Error α := do
  match ← integer? keyword raw with
  | none => return default
  | some n => if valid n then return result n else .error (.query fault)

section Checked

variable {α : Type} {keyword raw : Value} {default a : α} {valid : Int → Prop} [DecidablePred valid]
  {result : Int → α} {fault : QueryFault} {e : Error}

theorem checked_eq_ok_iff : checked keyword raw default valid result fault = .ok a ↔
    raw = .null ∧ a = default ∨ ∃ n, raw.Writes n ∧ valid n ∧ a = result n := by
  rw [checked, bind_eq_ok_iff]
  simp only [integer?_eq_ok_iff]
  constructor
  · rintro ⟨given, ⟨hnull, rfl⟩ | ⟨n, hn, rfl⟩, h⟩
    · exact .inl ⟨hnull, (Except.ok.inj h).symm⟩
    · dsimp only at h
      split at h
      · next hvalid => exact .inr ⟨n, hn, hvalid, (Except.ok.inj h).symm⟩
      · cases h
  · rintro (⟨hnull, rfl⟩ | ⟨n, hn, hvalid, rfl⟩)
    · exact ⟨none, .inl ⟨hnull, rfl⟩, rfl⟩
    · exact ⟨some n, .inr ⟨n, hn, rfl⟩, if_pos hvalid⟩

theorem checked_eq_error_iff : checked keyword raw default valid result fault = .error e ↔
    raw.Overlong ∧ e = .badValue ∨
    (raw ≠ .null ∧ raw.isIntegerToken = false) ∧ e = .query (.integerRequired keyword) ∨
    ∃ n, raw.Writes n ∧ ¬ valid n ∧ e = .query fault := by
  rw [checked, bind_eq_error_iff, integer?_eq_error_iff, or_assoc]
  refine or_congr_right (or_congr_right ?_)
  simp only [integer?_eq_ok_iff]
  constructor
  · rintro ⟨given, ⟨-, rfl⟩ | ⟨n, hn, rfl⟩, h⟩
    · cases h
    · dsimp only at h
      split at h
      · cases h
      · next hvalid => exact ⟨n, hn, hvalid, (Except.error.inj h).symm⟩
  · rintro ⟨n, hn, hvalid, rfl⟩
    exact ⟨some n, .inr ⟨n, hn, rfl⟩, if_neg hvalid⟩

end Checked

/-! ## Page sizes and page numbers -/

namespace IsTyped

variable {p : Pagination} {least greatest : Int} {params : Entries} {e : Error}

theorem perPage_eq (hp : p.IsTyped least greatest) (params : Entries) : p.perPage params =
    checked p.settings.perPageKeyword (given params p.settings.perPageKeyword) p.settings.standard
      (fun n => least ≤ n ∧ n ≤ greatest) Value.int
      (.pageSizeOutOfRange p.settings.perPageKeyword (.int least) (.int greatest)) := by
  obtain ⟨s, hs⟩ := hp.perPage
  unfold Pagination.perPage checked
  simp only [hs, hp.least, hp.greatest, Entries.parameter_text, ok_bind]
  refine bind_congr fun size => ?_
  cases size with
  | none => rfl
  | some n =>
    simp only [Value.less?_int, ok_bind, Value.greater_int, decide_eq_true_eq, pure_eq_ok]
    by_cases hlow : n < least
    · rw [if_pos hlow, if_neg (by omega)]
    · rw [if_neg hlow]
      by_cases hhigh : greatest < n
      · rw [if_pos hhigh, if_neg (by omega)]
      · rw [if_neg hhigh, if_pos (by omega)]

theorem page_eq (hp : p.IsTyped least greatest) (params : Entries) : p.page params =
    checked p.settings.pageKeyword (given params p.settings.pageKeyword) none (fun n => 1 ≤ n) some
      (.pageNotPositive p.settings.pageKeyword) := by
  obtain ⟨s, hs⟩ := hp.page
  unfold Pagination.page checked
  simp only [hs, Entries.parameter_text, ok_bind]
  refine bind_congr fun page => ?_
  cases page with
  | none => rfl
  | some n =>
    by_cases hpos : 1 ≤ n
    · simp only [if_pos hpos, if_neg (show ¬ n < 1 by omega)]
    · simp only [if_neg hpos, if_pos (show n < 1 by omega)]

theorem perPage_eq_ok_iff (hp : p.IsTyped least greatest) {size : Value} :
    p.perPage params = .ok size ↔ p.SaysSize least greatest params size := by
  rw [hp.perPage_eq, checked_eq_ok_iff, SaysSize]

theorem page_eq_ok_iff (hp : p.IsTyped least greatest) {page : Option Int} :
    p.page params = .ok page ↔ p.SaysPage params page := by
  rw [hp.page_eq, checked_eq_ok_iff, SaysPage]

/-! ## States -/

theorem reported_pageSizeOutOfRange {s : String} :
    (Error.query (.pageSizeOutOfRange (.text s) (.int least) (.int greatest))).reported =
      if (Value.int least).hasText ∧ (Value.int greatest).hasText then
        .query (.pageSizeOutOfRange (.text s) (.int least) (.int greatest))
      else .badValue := by
  simp [Error.reported, QueryFault.values, Value.allHaveText, show (Value.text s).hasText from rfl]

theorem stateOf_eq_ok_iff (hp : p.IsTyped least greatest) {state : PagingState} :
    p.stateOf params = .ok state ↔ p.Says least greatest params state := by
  obtain ⟨s, hs⟩ := hp.cursor
  unfold stateOf
  simp only [bind_eq_ok_iff, hp.perPage_eq_ok_iff, hp.page_eq_ok_iff, hs, Entries.parameter_text,
    Except.ok.injEq]
  constructor
  · rintro ⟨size, hsize, page, hpage, cursor, rfl, h⟩
    obtain rfl := Except.ok.inj h
    exact ⟨hsize, hpage, by rw [hs]; rfl⟩
  · intro h
    refine ⟨_, h.size, _, h.page, _, rfl, congrArg Except.ok ?_⟩
    obtain ⟨-, -, hcursor⟩ := h
    rw [hs] at hcursor
    exact congrArg (PagingState.mk _ _) hcursor.symm

theorem stateOf_eq_error_iff (hp : p.IsTyped least greatest) : p.stateOf params = .error e ↔
    p.perPage params = .error e ∨
    (∃ size, p.SaysSize least greatest params size) ∧ p.page params = .error e := by
  obtain ⟨s, hs⟩ := hp.cursor
  unfold stateOf
  simp only [bind_eq_error_iff, hp.perPage_eq_ok_iff, hs, Entries.parameter_text]
  simp

/-- Of what parameters say, only a text of too many digits and bounds without a text are met by an
error that is no refusal. -/
theorem reported_of_stateOf_eq_error (hp : p.IsTyped least greatest)
    (h : p.stateOf params = .error e) :
    e.reported = .badValue ∧ p.Unreadable least greatest params ∨
      ∃ fault, e.reported = .query fault := by
  obtain ⟨s, hs⟩ := hp.perPage
  obtain ⟨t, ht⟩ := hp.page
  rcases hp.stateOf_eq_error_iff.1 h with hsize | ⟨⟨size, hsize⟩, hpage⟩
  · rw [hp.perPage_eq] at hsize
    rcases checked_eq_error_iff.1 hsize with ⟨hlong, rfl⟩ | ⟨-, rfl⟩ | ⟨n, hn, hout, rfl⟩
    · exact .inl ⟨rfl, .size hlong⟩
    · exact .inr ⟨_, by rw [hs]; rfl⟩
    · rw [hs, reported_pageSizeOutOfRange]
      split
      · exact .inr ⟨_, rfl⟩
      · next htext => exact .inl ⟨rfl, .bounds hn hout (by simpa [or_iff_not_imp_left] using htext)⟩
  · rw [hp.page_eq] at hpage
    rcases checked_eq_error_iff.1 hpage with ⟨hlong, rfl⟩ | ⟨-, rfl⟩ | ⟨n, hn, hout, rfl⟩
    · exact .inl ⟨rfl, .page hsize hlong⟩
    · exact .inr ⟨_, by rw [ht]; rfl⟩
    · exact .inr ⟨_, by rw [ht]; rfl⟩

theorem exists_error_of_unreadable (hp : p.IsTyped least greatest)
    (h : p.Unreadable least greatest params) :
    ∃ e, p.stateOf params = .error e ∧ e.reported = .badValue := by
  simp only [hp.stateOf_eq_error_iff, hp.perPage_eq, hp.page_eq, checked_eq_error_iff]
  cases h with
  | size hlong => exact ⟨_, .inl (.inl ⟨hlong, rfl⟩), rfl⟩
  | bounds hn hout htext =>
    refine ⟨_, .inl (.inr (.inr ⟨_, hn, hout, rfl⟩)), ?_⟩
    obtain ⟨s, hs⟩ := hp.perPage
    rw [hs, reported_pageSizeOutOfRange, if_neg]
    rcases htext with h | h <;> simp [h]
  | page hsize hlong => exact ⟨_, .inr ⟨⟨_, hsize⟩, .inl ⟨hlong, rfl⟩⟩, rfl⟩

/-- A request describes the empty state, or the state that its paging parameters do, or something
that is no map stands in their place. -/
theorem state_cases (hp : p.IsTyped least greatest) (params : Entries) :
    p.Reads params none ∧ p.state params = .ok {} ∨
    (∃ es, p.Reads params (some es) ∧ p.state params = p.stateOf es) ∨
    ∃ s, p.state params = .error (.query (.notAList s "pagination parameters")) := by
  rcases hp.keyword with hkeyword | ⟨s, hkeyword⟩
  · exact .inr (.inl ⟨params, .whole hkeyword, state_flat hkeyword params⟩)
  · rw [state_namespaced hkeyword]
    dsimp only
    split
    · next hempty => exact .inl ⟨.absent hkeyword hempty, rfl⟩
    · next hempty =>
      split
      · next es hgiven =>
        refine .inr (.inl ⟨es, .bucket hkeyword hgiven ?_, rfl⟩)
        rintro rfl
        exact hempty (by rw [hgiven]; rfl)
      · exact .inr (.inr ⟨s, rfl⟩)

end IsTyped

theorem Reads.state_eq_of_none {p : Pagination} {params : Entries} (h : p.Reads params none) :
    p.state params = .ok {} := by
  cases h with
  | absent hkeyword hempty =>
    rw [state_namespaced hkeyword]
    exact if_pos hempty

theorem Reads.state_eq {p : Pagination} {params es : Entries} (h : p.Reads params (some es)) :
    p.state params = p.stateOf es := by
  cases h with
  | whole hkeyword => exact state_flat hkeyword params
  | bucket hkeyword hgiven hne =>
    have hempty : (Value.map es).isEmpty = false := by simpa [Value.isEmpty] using hne
    rw [given] at hgiven
    rw [state_namespaced hkeyword, hgiven]
    simp [hempty]

/-- What a request for pages is answered with, and why. -/
inductive Answered (p : Pagination) (least greatest : Int) (params : Entries) :
    Except Error PagingState → Prop
  | empty (hreads : p.Reads params none) : Answered p least greatest params (.ok {})
  | said {es : Entries} {state : PagingState} (hreads : p.Reads params (some es))
    (hsaid : p.Says least greatest es state) : Answered p least greatest params (.ok state)
  | unreadable {es : Entries} {e : Error} (hreads : p.Reads params (some es))
    (h : p.Unreadable least greatest es) (hreported : e.reported = .badValue) :
    Answered p least greatest params (.error e)
  | refused {e : Error} {fault : QueryFault} (hreported : e.reported = .query fault) :
    Answered p least greatest params (.error e)

theorem IsTyped.answered_state {p : Pagination} {least greatest : Int}
    (hp : p.IsTyped least greatest) (params : Entries) :
    p.Answered least greatest params (p.state params) := by
  rcases hp.state_cases params with ⟨hreads, hstate⟩ | ⟨es, hreads, hstate⟩ | ⟨s, hstate⟩
  · rw [hstate]
    exact .empty hreads
  · rw [hstate]
    cases hof : p.stateOf es with
    | ok state => exact .said hreads (hp.stateOf_eq_ok_iff.1 hof)
    | error e =>
      rcases hp.reported_of_stateOf_eq_error hof with ⟨hreported, h⟩ | ⟨fault, hreported⟩
      · exact .unreadable hreads h hreported
      · exact .refused hreported
  · rw [hstate]
    exact .refused rfl

theorem Says.wellFormed {p : Pagination} {least greatest : Int} {params : Entries}
    {state : PagingState} (h : p.Says least greatest params state) :
    (∀ n, state.page = some n → 1 ≤ n) ∧
      (state.cursor = .null ∨ state.cursor.isEmpty = false) ∧
      (state.perPage = .null → p.settings.standard = .null) := by
  refine ⟨fun n hn => ?_, ?_, fun hnull => ?_⟩
  · rcases h.page with ⟨-, hpage⟩ | ⟨m, -, hm, hpage⟩
    · rw [hn] at hpage
      cases hpage
    · obtain rfl := Option.some.inj (hn.symm.trans hpage)
      exact hm
  · rw [h.cursor]
    split
    · exact .inl rfl
    · next hempty => exact .inr (by simpa using hempty)
  · rcases h.size with ⟨-, hsize⟩ | ⟨m, -, -, hsize⟩
    · exact hsize.symm.trans hnull
    · rw [hnull] at hsize
      cases hsize

/-- **What a request says of pages is taken as it is or refused.** A request pages by the parameters
that it reads: its state is the one that they say, and the empty one if there are none. A request
without a state is refused, unless a text of too many digits stands where an integer is read, or the
bounds have no text for the message. So a page number is from one on, a cursor is not empty, and a page
size is missing only where no parameters are read or there is no standard one. -/
theorem state_outcomes {p : Pagination} {least greatest : Int} (hp : p.IsTyped least greatest)
    (params : Entries) :
    (∀ state, p.state params = .ok state ↔
      p.Reads params none ∧ state = {} ∨
      ∃ es, p.Reads params (some es) ∧ p.Says least greatest es state) ∧
    ((∃ e, p.state params = .error e ∧ e.reported = .badValue) ↔
      ∃ es, p.Reads params (some es) ∧ p.Unreadable least greatest es) ∧
    (∀ e, p.state params = .error e →
      e.reported = .badValue ∨ ∃ fault, e.reported = .query fault) ∧
    ∀ state, p.state params = .ok state →
      (∀ n, state.page = some n → 1 ≤ n) ∧
      (state.cursor = .null ∨ state.cursor.isEmpty = false) ∧
      (state.perPage = .null → p.Reads params none ∨ p.settings.standard = .null) := by
  have hanswered := hp.answered_state params
  refine ⟨fun state => ⟨?said, ?_⟩, ⟨?unreadable, ?_⟩, ?errors, ?wellFormed⟩
  case said =>
    intro h
    rw [h] at hanswered
    cases hanswered with
    | empty hreads => exact .inl ⟨hreads, rfl⟩
    | said hreads hsaid => exact .inr ⟨_, hreads, hsaid⟩
  · rintro (⟨hreads, rfl⟩ | ⟨es, hreads, hsaid⟩)
    · exact hreads.state_eq_of_none
    · rw [hreads.state_eq]
      exact hp.stateOf_eq_ok_iff.2 hsaid
  case unreadable =>
    rintro ⟨e, he, hreported⟩
    rw [he] at hanswered
    cases hanswered with
    | unreadable hreads h => exact ⟨_, hreads, h⟩
    | refused hrefused => cases hrefused.symm.trans hreported
  · rintro ⟨es, hreads, h⟩
    rw [hreads.state_eq]
    exact hp.exists_error_of_unreadable h
  case errors =>
    intro e he
    rw [he] at hanswered
    cases hanswered with
    | unreadable _ _ hreported => exact .inl hreported
    | refused hreported => exact .inr ⟨_, hreported⟩
  case wellFormed =>
    intro state h
    rw [h] at hanswered
    cases hanswered with
    | empty hreads => exact ⟨nofun, .inl rfl, fun _ => .inl hreads⟩
    | said _ hsaid =>
      obtain ⟨hpage, hcursor, hsize⟩ := hsaid.wellFormed
      exact ⟨hpage, hcursor, fun hnull => .inr (hsize hnull)⟩

/-- The standard settings take page sizes from 1 to 100: one of 25 is as asked for, one of 200 is
refused, and one with thousands of digits is not read. -/
theorem state_outcomes_standard :
    ({} : Pagination).IsTyped 1 100 ∧
    ({} : Pagination).state [(.text "per-page", .text "25"), (.text "page", .int 3)] =
      .ok { perPage := .int 25, page := some 3 } ∧
    ({} : Pagination).state [(.text "per-page", .text "200")] =
      .error (.query (.pageSizeOutOfRange (.text "per-page") (.int 1) (.int 100))) ∧
    ∃ e, ({} : Pagination).state [(.text "per-page",
        .text (String.ofList (List.replicate (Number.maxDigits + 1) '9')))] = .error e ∧
      e.reported = .badValue := by
  have hp : ({} : Pagination).IsTyped 1 100 :=
    ⟨.inl rfl, ⟨_, rfl⟩, ⟨_, rfl⟩, ⟨_, rfl⟩, rfl, rfl⟩
  have hsize : ∀ v es, given ((.text "per-page", v) :: es) (.text "per-page") = v :=
    fun v es => by with_unfolding_all rfl
  refine ⟨hp, ?_, by with_unfolding_all rfl, ?_⟩
  · have hpage : given [(.text "per-page", .text "25"), (.text "page", .int 3)] (.text "page") =
        .int 3 := by with_unfolding_all rfl
    have h25 : (Value.text "25").Writes 25 :=
      .digits (s := "25") (by decide) (List.all_eq_true.1 (by decide)) (by decide)
    refine ((state_outcomes hp _).1 _).2 (.inr ⟨_, .whole rfl, .inr ⟨25, ?_, by decide, rfl⟩,
      .inr ⟨3, ?_, by decide, rfl⟩, by with_unfolding_all rfl⟩)
    · exact (hsize _ _).symm ▸ h25
    · exact hpage.symm ▸ .int 3
  · refine (state_outcomes hp _).2.1.2 ⟨_, .whole rfl, .size ?_⟩
    exact (hsize _ _).symm ▸ Value.overlong_replicate (by decide) (Nat.lt_succ_self _)

end Listing.Pagination
