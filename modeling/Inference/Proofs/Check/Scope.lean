import Inference.Check.Scope
import Mathlib.Data.List.Induction
import Mathlib.Data.List.Infix
import Mathlib.Data.Nat.Find

/-!
# Inference.Proofs.Check.Scope

A scope at work. What its frames hold is said of the requests made to it: where among them a variable
is defined, how deep they are nested there, and whether they close the frame later.

* `ScopeRequest`, `Scope.run`: a scope at work.
* `Balanced`: requests that close the frames they open, and no others; `run_bracketed`, between a
  push and its pop they leave no trace.
* `nesting`, `Defined`, `First`, `Visible`: the definitions in open frames, by position.
* `lookup?_frameAt`: a frame binds each name as it is first defined in it.
* `frames_isolated`: what a frame binds is gone with it, and what is found at any time is the first
  definition in the innermost frame that has one.
-/

namespace Inference

inductive ScopeRequest where
  | push
  | pop
  | define (v : Variable)
  deriving DecidableEq

namespace Scope

def perform (s : Scope) : ScopeRequest → Scope
  | .push => s.push
  | .pop => s.pop
  | .define v => (s.define v).1

def run (s : Scope) (requests : List ScopeRequest) : Scope := requests.foldl perform s

theorem run_append (s : Scope) (before after : List ScopeRequest) :
    s.run (before ++ after) = (s.run before).run after := List.foldl_append

theorem frames_injective : Function.Injective frames := by
  intro s s' h
  cases s
  cases s'
  cases h
  rfl

theorem frames_push (s : Scope) : s.push.frames = [] :: s.frames := rfl

theorem frames_pop (s : Scope) :
    s.pop.frames = if s.enclosing = [] then s.frames else s.enclosing := by
  rw [pop]
  split
  · rename_i h
    rw [if_pos h]
  · rename_i h
    rw [if_neg (by simp [h]), h, frames]

theorem frames_define (s : Scope) (v : Variable) :
    (s.define v).1.frames = (s.define v).1.current :: s.enclosing := by
  rw [define]
  split <;> rfl

theorem lookup?_current_define {s : Scope} {u v : Variable} {name : String} :
    (s.define u).1.current.lookup? name = some v ↔
      s.current.lookup? name = some v ∨
        u = v ∧ u.name = name ∧ s.current.lookup? name = none := by
  rw [define]
  split
  · rename_i w hw
    constructor
    · exact .inl
    · rintro (h | ⟨rfl, rfl, hnone⟩)
      · exact h
      · rw [hw] at hnone
        cases hnone
  · rename_i hnone
    have happend : Frame.lookup? (s.current ++ [u]) name =
        (s.current.lookup? name).or (if u.name = name then some u else none) := by
      simp only [Frame.lookup?, List.find?_append, List.find?_singleton, beq_iff_eq]
    rw [happend, Option.or_eq_some_iff]
    refine or_congr_right ?_
    by_cases hname : u.name = name
    · simp [hname, and_comm]
    · simp [hname]

/-- Requests that close as many frames as they open, and never one that they did not open. -/
structure Balanced (requests : List ScopeRequest) : Prop where
  within : ∀ before, before <+: requests → before.count .pop ≤ before.count .push
  closed : requests.count .pop = requests.count .push

variable {s : Scope} {above below : List Frame}

theorem frames_perform (hs : s.frames = above ++ below) (habove : above ≠ []) (hbelow : below ≠ [])
    (request : ScopeRequest) : ∃ above', (s.perform request).frames = above' ++ below ∧
      above'.length + [request].count .pop = above.length + [request].count .push := by
  obtain ⟨frame, rest, rfl⟩ := List.exists_cons_of_ne_nil habove
  obtain ⟨-, henclosing⟩ : s.current = frame ∧ s.enclosing = rest ++ below := List.cons.inj hs
  cases request with
  | push => exact ⟨[] :: frame :: rest, by rw [perform, frames_push, hs]; rfl, by simp⟩
  | pop =>
    have hclosed : s.pop.frames = s.enclosing := by
      rw [frames_pop, if_neg (by simp [henclosing, hbelow])]
    exact ⟨rest, hclosed.trans henclosing, by simp⟩
  | define v =>
    exact ⟨(s.define v).1.current :: rest, by rw [perform, frames_define, henclosing]; rfl, by simp⟩

theorem frames_run (hs : s.frames = above ++ below) (hbelow : below ≠ [])
    {requests : List ScopeRequest} (hwithin : ∀ before, before <+: requests →
      before.count .pop < above.length + before.count .push) :
    ∃ above', (s.run requests).frames = above' ++ below ∧
      above'.length + requests.count .pop = above.length + requests.count .push := by
  induction requests generalizing s above with
  | nil => exact ⟨above, hs, rfl⟩
  | cons request requests ih =>
    have hcount : ∀ (rest : List ScopeRequest) (r : ScopeRequest),
        (request :: rest).count r = [request].count r + rest.count r := by
      intro rest r
      rw [← List.singleton_append, List.count_append]
    have habove : above ≠ [] := by
      rintro rfl
      exact absurd (hwithin [] List.nil_prefix) (by simp)
    obtain ⟨above₁, hs₁, hlen₁⟩ := frames_perform hs habove hbelow request
    obtain ⟨above₂, hs₂, hlen₂⟩ := ih hs₁ fun before hbefore => by
      have hlt := hwithin (request :: before) (List.cons_prefix_cons.mpr ⟨rfl, hbefore⟩)
      rw [hcount before .pop, hcount before .push] at hlt
      omega
    refine ⟨above₂, hs₂, ?_⟩
    rw [hcount requests .pop, hcount requests .push]
    omega

/-- What happens between a push and the pop that closes its frame leaves no trace. -/
theorem run_bracketed (s : Scope) {body : List ScopeRequest} (h : Balanced body) :
    s.run (.push :: body ++ [.pop]) = s := by
  have hbelow : s.frames ≠ [] := List.cons_ne_nil _ _
  have hopened : s.push.frames = [[]] ++ s.frames := rfl
  obtain ⟨above, hbody, hlen⟩ := frames_run hopened hbelow fun before hbefore => by
    have hle := h.within before hbefore
    rw [List.length_singleton]
    omega
  rw [h.closed, Nat.add_right_cancel_iff, List.length_singleton] at hlen
  have habove : above ≠ [] := List.ne_nil_of_length_pos (by omega)
  obtain ⟨rest, hend, hrest⟩ := frames_perform hbody habove hbelow .pop
  have hnil : rest = [] := List.eq_nil_of_length_eq_zero (by simp at hrest; omega)
  subst hnil
  refine frames_injective ?_
  calc (s.run (.push :: body ++ [.pop])).frames
    _ = ((s.push.run body).perform .pop).frames := by rw [run_append]; rfl
    _ = s.frames := hend

/-- The number of frames open around the current one when it was `n` before a request. A pop closes
nothing when there are none. -/
def nest (n : Nat) : ScopeRequest → Nat
  | .push => n + 1
  | .pop => n - 1
  | .define _ => n

def nesting (history : List ScopeRequest) : Nat := history.foldl nest 0

def nestingAt (history : List ScopeRequest) (i : Nat) : Nat := nesting (history.take i)

/-- The request at the position defines the variable, in a frame that is open to the end: from there
on the nesting is never less. This says nothing of whether the definition was refused. -/
structure Defined (history : List ScopeRequest) (i : Nat) (v : Variable) : Prop where
  request : history[i]? = some (.define v)
  stays : ∀ j, i ≤ j → nestingAt history i ≤ nestingAt history j

/-- A definition in an open frame, and the first of its name in that frame. -/
structure First (history : List ScopeRequest) (i : Nat) (v : Variable) : Prop
    extends Defined history i v where
  first : ∀ k w, Defined history k w → w.name = v.name →
    nestingAt history k = nestingAt history i → i ≤ k

/-- A first definition of a name that is defined in no open frame further in. -/
structure Visible (history : List ScopeRequest) (i : Nat) (v : Variable) : Prop
    extends First history i v where
  innermost : ∀ k w, Defined history k w → w.name = v.name →
    nestingAt history k ≤ nestingAt history i

variable {history : List ScopeRequest} {request : ScopeRequest} {i n : Nat} {v : Variable}

theorem nesting_concat : nesting (history ++ [request]) = nest (nesting history) request :=
  List.foldl_concat ..

theorem nestingAt_of_le (h : history.length ≤ i) : nestingAt history i = nesting history := by
  rw [nestingAt, List.take_of_length_le h]

theorem nestingAt_concat (h : i ≤ history.length) :
    nestingAt (history ++ [request]) i = nestingAt history i := by
  rw [nestingAt, List.take_append_of_le_length h, nestingAt]

theorem nestingAt_concat_length :
    nestingAt (history ++ [request]) history.length = nesting history := by
  rw [nestingAt_concat (Nat.le_refl _), nestingAt_of_le (Nat.le_refl _)]

theorem nestingAt_concat_of_lt (h : history.length < i) :
    nestingAt (history ++ [request]) i = nesting (history ++ [request]) :=
  nestingAt_of_le (by rw [List.length_append]; exact h)

theorem Defined.lt (h : Defined history i v) : i < history.length :=
  (List.getElem?_eq_some_iff.mp h.request).1

theorem Defined.nestingAt_le (h : Defined history i v) : nestingAt history i ≤ nesting history :=
  (h.stays history.length h.lt.le).trans_eq (nestingAt_of_le (Nat.le_refl _))

theorem Defined.nestingAt_concat (h : Defined history i v) :
    nestingAt (history ++ [request]) i = nestingAt history i :=
  Scope.nestingAt_concat h.lt.le

theorem Defined.of_concat (hi : i < history.length) (h : Defined (history ++ [request]) i v) :
    Defined history i v ∧ nestingAt history i ≤ nesting (history ++ [request]) := by
  have hsame : nestingAt (history ++ [request]) i = nestingAt history i :=
    Scope.nestingAt_concat hi.le
  have hrequest := h.request
  rw [List.getElem?_append_left hi] at hrequest
  refine ⟨⟨hrequest, fun j hj => ?_⟩, hsame ▸ h.nestingAt_le⟩
  rcases Nat.le_total j history.length with hjl | hjl
  · have hle := h.stays j hj
    rwa [hsame, Scope.nestingAt_concat hjl] at hle
  · have hle := h.stays history.length hi.le
    rwa [hsame, nestingAt_concat_length, ← nestingAt_of_le hjl] at hle

theorem Defined.concat (h : Defined history i v)
    (hopen : nestingAt history i ≤ nesting (history ++ [request])) :
    Defined (history ++ [request]) i v where
  request := by rw [List.getElem?_append_left h.lt]; exact h.request
  stays j hj := by
    rw [h.nestingAt_concat]
    rcases Nat.lt_or_ge history.length j with hjl | hjl
    · rwa [nestingAt_concat_of_lt hjl]
    · rw [Scope.nestingAt_concat hjl]
      exact h.stays j hj

theorem defined_length (history : List ScopeRequest) (v : Variable) :
    Defined (history ++ [.define v]) history.length v where
  request := List.getElem?_concat_length
  stays j hj := by
    rw [nestingAt_concat_length]
    rcases Nat.eq_or_lt_of_le hj with rfl | hjl
    · rw [nestingAt_concat_length]
    · rw [nestingAt_concat_of_lt hjl, nesting_concat, nest]

/-- A request ends the definitions of the frame that it closes, and may be one itself. -/
theorem defined_concat : Defined (history ++ [request]) i v ↔
    Defined history i v ∧ nestingAt history i ≤ nesting (history ++ [request]) ∨
      request = .define v ∧ i = history.length := by
  constructor
  · intro h
    have hlt : i < history.length + 1 := by simpa using h.lt
    rcases Nat.lt_succ_iff_lt_or_eq.mp hlt with hi | rfl
    · exact .inl (h.of_concat hi)
    · have hrequest := h.request
      rw [List.getElem?_concat_length] at hrequest
      exact .inr ⟨Option.some.inj hrequest, rfl⟩
  · rintro (⟨h, hopen⟩ | ⟨rfl, rfl⟩)
    · exact h.concat hopen
    · exact defined_length history v

/-- The variable is the first of its name that is defined in the frame at a nesting. -/
def Holds (history : List ScopeRequest) (n : Nat) (v : Variable) : Prop :=
  ∃ i, nestingAt history i = n ∧ First history i v

theorem Holds.le (h : Holds history n v) : n ≤ nesting history := by
  obtain ⟨i, rfl, hi⟩ := h
  exact hi.nestingAt_le

theorem Defined.exists_holds (h : Defined history i v) :
    ∃ w, w.name = v.name ∧ Holds history (nestingAt history i) w := by
  classical
  have hex : ∃ k, ∃ w, Defined history k w ∧ w.name = v.name ∧
      nestingAt history k = nestingAt history i := ⟨i, v, h, rfl, rfl⟩
  obtain ⟨w, hw, hname, hlevel⟩ := Nat.find_spec hex
  refine ⟨w, hname, Nat.find hex, hlevel, hw, fun k u hu huname hulevel => ?_⟩
  exact Nat.find_min' hex ⟨u, hu, huname.trans hname, hulevel.trans hlevel⟩

theorem First.concat (h : First history i v)
    (hopen : nestingAt history i ≤ nesting (history ++ [request])) :
    First (history ++ [request]) i v where
  toDefined := h.toDefined.concat hopen
  first k w hw hname hlevel := by
    rcases defined_concat.mp hw with ⟨hold, -⟩ | ⟨-, rfl⟩
    · rw [hold.nestingAt_concat, h.nestingAt_concat] at hlevel
      exact h.first k w hold hname hlevel
    · exact h.lt.le

theorem first_length (hnew : ∀ w, Holds history (nesting history) w → w.name ≠ v.name) :
    First (history ++ [.define v]) history.length v where
  toDefined := defined_length history v
  first k w hw hname hlevel := by
    rcases defined_concat.mp hw with ⟨hold, -⟩ | ⟨-, rfl⟩
    · rw [hold.nestingAt_concat, nestingAt_concat_length] at hlevel
      obtain ⟨u, huname, hu⟩ := hold.exists_holds
      exact absurd (huname.trans hname) (hnew u (hlevel ▸ hu))
    · exact Nat.le_refl _

/-- A request takes away what the frame that it closes held. It adds a variable when it defines one
whose name the current frame does not hold. -/
theorem holds_concat : Holds (history ++ [request]) n v ↔
    Holds history n v ∧ n ≤ nesting (history ++ [request]) ∨
      request = .define v ∧ n = nesting history ∧ ∀ w, Holds history n w → w.name ≠ v.name := by
  constructor
  · rintro ⟨i, rfl, h⟩
    have hearlier : ∀ {k w}, Defined history k w →
        nestingAt history k = nestingAt (history ++ [request]) i → w.name = v.name → i ≤ k := by
      intro k w hw hlevel hname
      have hopen : nestingAt history k ≤ nesting (history ++ [request]) := by
        rw [hlevel]
        exact h.nestingAt_le
      exact h.first k w (hw.concat hopen) hname (hw.nestingAt_concat.trans hlevel)
    rcases defined_concat.mp h.toDefined with ⟨hold, hopen⟩ | ⟨rfl, rfl⟩
    · have hsame : nestingAt (history ++ [request]) i = nestingAt history i := hold.nestingAt_concat
      rw [hsame] at hearlier ⊢
      exact .inl ⟨⟨i, rfl, hold, fun k w hw hname hlevel => hearlier hw hlevel hname⟩, hopen⟩
    · refine .inr ⟨rfl, nestingAt_concat_length, fun w ⟨k, hlevel, hw⟩ hname => ?_⟩
      exact absurd hw.lt (Nat.not_lt.mpr (hearlier hw.toDefined hlevel hname))
  · rintro (⟨⟨i, rfl, h⟩, hopen⟩ | ⟨rfl, rfl, hnew⟩)
    · exact ⟨i, h.nestingAt_concat, h.concat hopen⟩
    · exact ⟨history.length, nestingAt_concat_length, first_length hnew⟩

/-- The frame at a nesting, the outermost one being at `0`. Where none is open it is empty. -/
def frameAt : List Frame → Nat → Frame
  | [], _ => []
  | frame :: outer, n => if n = outer.length then frame else frameAt outer n

variable {frame : Frame} {outer : List Frame} {name : String}

theorem frameAt_length : frameAt (frame :: outer) outer.length = frame := if_pos rfl

theorem frameAt_of_ne (h : n ≠ outer.length) : frameAt (frame :: outer) n = frameAt outer n :=
  if_neg h

theorem frameAt_of_le {frames : List Frame} (h : frames.length ≤ n) : frameAt frames n = [] := by
  induction frames with
  | nil => rfl
  | cons frame outer ih =>
    rw [List.length_cons] at h
    rw [frameAt_of_ne (by omega), ih (by omega)]

theorem frameAt_mem {frames : List Frame} (h : n < frames.length) : frameAt frames n ∈ frames := by
  induction frames with
  | nil => cases h
  | cons frame outer ih =>
    by_cases hn : n = outer.length
    · subst hn
      rw [frameAt_length]
      exact List.mem_cons_self
    · rw [List.length_cons] at h
      rw [frameAt_of_ne hn]
      exact List.mem_cons_of_mem _ (ih (by omega))

theorem lookup?_frameAt_cons (h : frame.lookup? name = none) (n : Nat) :
    (frameAt (frame :: outer) n).lookup? name = (frameAt outer n).lookup? name := by
  by_cases hn : n = outer.length
  · subst hn
    rw [frameAt_length, h, frameAt_of_le (Nat.le_refl _)]
    rfl
  · rw [frameAt_of_ne hn]

theorem findSome?_lookup?_eq_some_iff {frames : List Frame} :
    frames.findSome? (·.lookup? name) = some v ↔
      ∃ n, (frameAt frames n).lookup? name = some v ∧
        ∀ m, n < m → (frameAt frames m).lookup? name = none := by
  induction frames with
  | nil => simp [frameAt, Frame.lookup?]
  | cons frame outer ih =>
    rw [List.findSome?_cons]
    cases hframe : frame.lookup? name with
    | none => simpa only [lookup?_frameAt_cons hframe] using ih
    | some u =>
      constructor
      · intro h
        refine ⟨outer.length, by rw [frameAt_length, hframe]; exact h, fun m hm => ?_⟩
        rw [frameAt_of_le hm]
        rfl
      · rintro ⟨n, hn, hinner⟩
        rcases Nat.lt_trichotomy n outer.length with hlt | rfl | hgt
        · have hnone := hinner _ hlt
          rw [frameAt_length, hframe] at hnone
          cases hnone
        · rwa [frameAt_length, hframe] at hn
        · rw [frameAt_of_le hgt] at hn
          cases hn

theorem lt_of_lookup?_frameAt {frames : List Frame}
    (h : (frameAt frames n).lookup? name = some v) : n < frames.length := by
  by_contra hn
  rw [frameAt_of_le (Nat.not_lt.mp hn)] at h
  cases h

theorem lookup?_frameAt_pop (s : Scope) : (frameAt s.pop.frames n).lookup? name = some v ↔
    (frameAt s.frames n).lookup? name = some v ∧ n ≤ s.enclosing.length - 1 := by
  rw [frames_pop]
  split
  · rename_i h
    refine (and_iff_left_of_imp fun hv => ?_).symm
    have hlt := lt_of_lookup?_frameAt hv
    rw [frames, List.length_cons, h, List.length_nil] at hlt
    omega
  · rename_i h
    have hpos : 0 < s.enclosing.length := List.length_pos_iff.mpr h
    constructor
    · intro hv
      have hlt := lt_of_lookup?_frameAt hv
      exact ⟨by rwa [frames, frameAt_of_ne hlt.ne], by omega⟩
    · rintro ⟨hv, hn⟩
      rwa [frames, frameAt_of_ne (by omega)] at hv

theorem lookup?_frameAt_define (s : Scope) (u : Variable) :
    (frameAt (s.define u).1.frames n).lookup? name = some v ↔
      (frameAt s.frames n).lookup? name = some v ∨
        u = v ∧ n = s.enclosing.length ∧ u.name = name ∧
          (frameAt s.frames n).lookup? name = none := by
  rw [frames_define, frames]
  by_cases hn : n = s.enclosing.length
  · subst hn
    rw [frameAt_length, frameAt_length, lookup?_current_define]
    simp only [true_and]
  · rw [frameAt_of_ne hn, frameAt_of_ne hn]
    simp only [hn, false_and, and_false, or_false]

/-! ## A scope at work -/

theorem run_concat (s : Scope) : s.run (history ++ [request]) = (s.run history).perform request :=
  List.foldl_concat ..

theorem length_enclosing_run (history : List ScopeRequest) :
    (empty.run history).enclosing.length = nesting history := by
  induction history using List.reverseRecOn with
  | nil => rfl
  | append_singleton history request ih =>
    rw [run_concat, nesting_concat, ← ih]
    cases request with
    | push => rfl
    | pop =>
      simp only [perform, pop, nest]
      split
      · rename_i h
        rw [h]
        rfl
      · rename_i h
        rw [h]
        rfl
    | define v =>
      simp only [perform, define, nest]
      split <;> rfl

/-- After any requests to a new scope, a frame binds a name to the variable that is first defined
under it there. -/
theorem lookup?_frameAt (history : List ScopeRequest) (n : Nat) (name : String) (v : Variable) :
    (frameAt (empty.run history).frames n).lookup? name = some v ↔
      v.name = name ∧ Holds history n v := by
  induction history using List.reverseRecOn generalizing n v with
  | nil =>
    constructor
    · intro h
      rw [show (empty.run []).frames = [[]] from rfl, lookup?_frameAt_cons rfl] at h
      cases h
    · rintro ⟨-, i, -, hi⟩
      exact absurd hi.lt (Nat.not_lt_zero i)
  | append_singleton history request ih =>
    rw [run_concat, holds_concat, nesting_concat]
    cases request with
    | push =>
      rw [perform, frames_push, lookup?_frameAt_cons rfl, ih]
      simp only [nest, reduceCtorEq, false_and, or_false]
      exact and_congr_right fun _ => (and_iff_left_of_imp fun h => h.le.trans (Nat.le_succ _)).symm
    | pop =>
      rw [perform, lookup?_frameAt_pop, ih, length_enclosing_run]
      simp only [nest, reduceCtorEq, false_and, or_false, and_assoc]
    | define u =>
      have hnone : (frameAt (empty.run history).frames n).lookup? name = none ↔
          ∀ w, Holds history n w → w.name ≠ name := by
        simp only [Option.eq_none_iff_forall_ne_some, ne_eq, ih, not_and']
      rw [perform, lookup?_frameAt_define, ih, length_enclosing_run, hnone]
      have hle : Holds history n v ∧ n ≤ nesting history ↔ Holds history n v :=
        and_iff_left_of_imp Holds.le
      simp only [nest, ScopeRequest.define.injEq, hle]
      constructor
      · rintro (⟨hname, h⟩ | ⟨rfl, hn, rfl, hnew⟩)
        · exact ⟨hname, .inl h⟩
        · exact ⟨rfl, .inr ⟨rfl, hn, hnew⟩⟩
      · rintro ⟨rfl, h | ⟨rfl, hn, hnew⟩⟩
        · exact .inl ⟨rfl, h⟩
        · exact .inr ⟨rfl, hn, rfl, hnew⟩

theorem lookup?_run (history : List ScopeRequest) (name : String) (v : Variable) :
    (empty.run history).lookup? name = some v ↔ v.name = name ∧ ∃ i, Visible history i v := by
  rw [lookup?, findSome?_lookup?_eq_some_iff]
  constructor
  · rintro ⟨n, hn, hinner⟩
    obtain ⟨rfl, i, rfl, hi⟩ := (lookup?_frameAt history _ _ _).mp hn
    refine ⟨rfl, i, hi, fun k w hw hname => ?_⟩
    by_contra hdeeper
    obtain ⟨u, huname, hu⟩ := hw.exists_holds
    have hsome := (lookup?_frameAt history _ _ u).mpr ⟨huname.trans hname, hu⟩
    rw [hinner _ (Nat.not_le.mp hdeeper)] at hsome
    cases hsome
  · rintro ⟨rfl, i, hi⟩
    refine ⟨nestingAt history i, (lookup?_frameAt history _ _ _).mpr ⟨rfl, i, rfl, hi.toFirst⟩,
      fun m hm => ?_⟩
    rw [Option.eq_none_iff_forall_ne_some]
    intro w hw
    obtain ⟨hname, k, rfl, hk⟩ := (lookup?_frameAt history _ _ w).mp hw
    exact absurd (hi.innermost k w hk.toDefined hname) (Nat.not_le.mpr hm)

theorem isDefined_run (history : List ScopeRequest) (name : String) :
    (empty.run history).isDefined name = true ↔ ∃ i v, Defined history i v ∧ v.name = name := by
  rw [isDefined, Option.isSome_iff_exists]
  constructor
  · rintro ⟨v, hv⟩
    obtain ⟨hname, i, hi⟩ := (lookup?_run history name v).mp hv
    exact ⟨i, v, hi.toDefined, hname⟩
  · rintro ⟨i, v, hv, rfl⟩
    obtain ⟨w, hname, hw⟩ := hv.exists_holds
    have hbound := (lookup?_frameAt history _ _ w).mpr ⟨hname, hw⟩
    rw [← Option.ne_none_iff_exists', lookup?, ne_eq, List.findSome?_eq_none_iff]
    intro hnone
    rw [hnone _ (frameAt_mem (lt_of_lookup?_frameAt hbound))] at hbound
    cases hbound

theorem define_eq_false_iff {s : Scope} :
    (s.define v).2 = false ↔ ∃ w, s.current.lookup? v.name = some w := by
  rw [define]
  split
  · rename_i w hw
    exact iff_of_true rfl ⟨w, hw⟩
  · rename_i hnone
    simp [hnone]

theorem define_fst_of_refused {s : Scope} (h : (s.define v).2 = false) : (s.define v).1 = s := by
  obtain ⟨w, hw⟩ := define_eq_false_iff.mp h
  rw [define, hw]

theorem define_run_eq_false_iff (history : List ScopeRequest) (v : Variable) :
    ((empty.run history).define v).2 = false ↔
      ∃ i w, Defined history i w ∧ w.name = v.name ∧ nestingAt history i = nesting history := by
  have hcurrent : frameAt (empty.run history).frames (nesting history) =
      (empty.run history).current := by
    rw [← length_enclosing_run, frames, frameAt_length]
  rw [define_eq_false_iff, ← hcurrent]
  simp only [lookup?_frameAt]
  constructor
  · rintro ⟨w, hname, i, hn, hi⟩
    exact ⟨i, w, hi.toDefined, hname, hn⟩
  · rintro ⟨i, w, hw, hname, hn⟩
    obtain ⟨u, huname, hu⟩ := hw.exists_holds
    exact ⟨u, huname.trans hname, hn ▸ hu⟩

/-- Frames are isolated. After any requests to a new scope, a push, the pop that closes its frame
and what is asked in between, without closing a frame that was open before, together leave the scope
as it was, so it answers everything as before. What is looked up at any time is the variable that
was defined first under the name in the innermost open frame in which the name was defined, if there
is such a frame; a further definition in that frame is refused and changes nothing. The outermost
frame is always open. -/
theorem frames_isolated (history : List ScopeRequest) :
    let s := empty.run history
    (∀ body, Balanced body → s.run (.push :: body ++ [.pop]) = s) ∧
    s.depth = nesting history + 1 ∧
    (∀ name v, s.lookup? name = some v ↔ v.name = name ∧ ∃ i, Visible history i v) ∧
    (∀ name, s.isDefined name = true ↔ ∃ i v, Defined history i v ∧ v.name = name) ∧
    (∀ v, (s.define v).2 = false ↔
      ∃ i w, Defined history i w ∧ w.name = v.name ∧ nestingAt history i = nesting history) ∧
    ∀ v, (s.define v).2 = false → (s.define v).1 = s := by
  intro s
  refine ⟨fun body h => run_bracketed s h, ?_, lookup?_run history, isDefined_run history,
    define_run_eq_false_iff history, fun v h => define_fst_of_refused h⟩
  rw [depth, frames, List.length_cons, length_enclosing_run]

/-- The second pop closes nothing. What `x` is bound to in the frames opened first and last is gone
with them. -/
theorem frames_isolated_sample :
    let x (category : Nat) : Variable := ⟨"x", ⟨category⟩⟩
    let history : List ScopeRequest := [.push, .define (x 3), .pop, .pop, .define (x 0), .push,
      .define (x 1), .define (x 2)]
    let body : List ScopeRequest := [.define (x 4), .push, .define (x 5), .pop, .define (x 6)]
    let s := empty.run history
    Balanced body ∧ s.run (.push :: body ++ [.pop]) = s ∧ s.depth = 2 ∧ s.lookup? "x" = some (x 1) ∧
      (∃ i, Visible history i (x 1)) ∧ (s.define (x 2)).2 = false ∧ (s.define (x 2)).1 = s := by
  intro x history body s
  have hbody : Balanced body := by
    refine ⟨fun before hbefore => ?_, by decide⟩
    have hall : ∀ before ∈ body.inits, before.count .pop ≤ before.count .push := by decide
    exact hall before ((List.mem_inits ..).mpr hbefore)
  have hx : s.lookup? "x" = some (x 1) := by decide +kernel
  have hrefused : (s.define (x 2)).2 = false := by decide +kernel
  obtain ⟨hback, hdepth, hlookup, -, -, hkept⟩ := frames_isolated history
  exact ⟨hbody, hback body hbody, hdepth, hx, ((hlookup "x" (x 1)).mp hx).2, hrefused,
    hkept (x 2) hrefused⟩

end Scope
end Inference
