import Inference.Proofs.Session.Store

/-!
# Inference.Proofs.Session.Ledger

The diagnostics of a session, from where they are found to where they are taken. They are found when
a conjunction is made and when the declarations are checked, they wait in the session, and they are
taken at any time. What was taken and what still waits are together, in order, what was found: a
list of components is reported on once, at the place of the request that was first given its
conjunction.

* `Given`, `Session.given?`: a request that is given a conjunction.
* `taken`: all that was taken in a run. `ledger`: all that should be found in it, request by request,
  by the lists that were given before.
* `Recorded`: the lists that were given are those on record; `Recorded.synthesize`, what a request
  adds to the diagnostics, and that it keeps this.
* `balance_run`: what was taken and what waits are the ledger.
-/

namespace Inference

/-- A conjunction as it is given: the place of the request, the components and the judgment. -/
structure Given where
  span : Span
  parts : List JudgmentId
  judgment : JudgmentId
  deriving DecidableEq

namespace Session

def SessionAnswer.told : SessionAnswer → List Diagnostic
  | .diagnostics found => found
  | _ => []

/-- All that was taken in the course of the requests, in order. -/
def taken (s : Session) (requests : List SessionRequest) : List Diagnostic :=
  (s.answers requests).flatMap SessionAnswer.told

/-- The components that a request asks for, when it asks for a conjunction and names only judgments
that there are. -/
def asks? (s : Session) : SessionRequest → Option (Span × List JudgmentId)
  | .synthesize span parts => some (span, parts)
  | .synthesizeNamed span names =>
    match s.resolve names with
    | .ok parts => some (span, parts)
    | .error _ => none
  | _ => none

/-- The conjunction that the request is given, when it is not refused. -/
def given? (s : Session) (request : SessionRequest) : Option Given :=
  match s.asks? request, s.answer request with
  | some (span, parts), .judgment (.ok judgment) => some ⟨span, parts, judgment⟩
  | _, _ => none

/-- What is found when a conjunction is first given, from one session to the next: where the
components disagree, at the place of the request, and what the checker finds in the new judgment if
judgments are validated. -/
def found (s t : Session) (g : Given) : List Diagnostic :=
  (s.registry.agree g.parts g.span).diagnostics ++
    if s.config.validate then (t.registry.check g.judgment).1 else []

/-- What should be found at a request, when these lists were given conjunctions before. -/
def entry (s : Session) (given : List (List JudgmentId)) (request : SessionRequest) :
    List Diagnostic :=
  match request with
  | .checkDeclarations => s.registry.checkAll.1
  | request =>
    match s.given? request with
    | none => []
    | some g => if g.parts ∈ given then [] else s.found (s.perform request) g

/-- What should be found in the course of the requests. -/
def ledger (s : Session) (given : List (List JudgmentId)) : List SessionRequest → List Diagnostic
  | [] => []
  | request :: requests =>
    s.entry given request ++
      (s.perform request).ledger (given ++ (s.given? request).toList.map (·.parts)) requests

variable {s t : Session} {given : List (List JudgmentId)}

theorem eq_synthesize_of_asks? {request : SessionRequest} {span : Span} {parts : List JudgmentId}
    (h : s.asks? request = some (span, parts)) :
    s.perform request = (s.synthesize span parts).1 ∧
      s.answer request = .judgment (s.synthesize span parts).2 := by
  cases request with
  | synthesize span' parts' =>
    cases h
    exact ⟨rfl, rfl⟩
  | synthesizeNamed span' names =>
    rw [asks?] at h
    split at h
    · rename_i parts' hparts
      cases h
      rw [perform, answer, synthesizeNamed, hparts]
      exact ⟨rfl, rfl⟩
    · cases h
  | takeDiagnostics => cases h
  | checkDeclarations => cases h
  | reset => cases h

theorem synthesize_of_get? {parts : List JudgmentId} {judgment : JudgmentId}
    (h : s.workspace.cache.get? parts = some judgment) (span : Span) :
    s.synthesize span parts = (s, .ok judgment) := by
  rw [synthesize, Workspace.synthesize_hit h]
  simp only [List.append_nil]

theorem given?_eq_some {request : SessionRequest} {g : Given} (h : s.given? request = some g) :
    s.perform request = (s.synthesize g.span g.parts).1 ∧
      (s.synthesize g.span g.parts).2 = .ok g.judgment := by
  rw [given?] at h
  split at h
  · rename_i span parts judgment hasks hanswer
    cases h
    obtain ⟨hperform, hsame⟩ := eq_synthesize_of_asks? hasks
    rw [hsame] at hanswer
    exact ⟨hperform, SessionAnswer.judgment.inj hanswer⟩
  · cases h

theorem get?_of_given? {request : SessionRequest} {g : Given} (h : s.given? request = some g) :
    (s.perform request).workspace.cache.get? g.parts = some g.judgment := by
  obtain ⟨hperform, hok⟩ := given?_eq_some h
  rw [synthesize] at hok
  split at hok
  · cases hok
  · rename_i w made hmade
    rw [hperform, workspace_synthesize, ← Except.ok.inj hok]
    exact (Workspace.get?_of_synthesize (congrArg Prod.snd hmade)).1

theorem get?_run {parts : List JudgmentId} {judgment : JudgmentId}
    (h : s.workspace.cache.get? parts = some judgment) {requests : List SessionRequest}
    (hreset : .reset ∉ requests) :
    (s.run requests).workspace.cache.get? parts = some judgment := by
  induction requests generalizing s with
  | nil => exact h
  | cons request requests ih =>
    rw [List.mem_cons, not_or] at hreset
    refine ih ?_ hreset.2
    cases request with
    | synthesize span others =>
      rw [perform, workspace_synthesize]
      exact Workspace.get?_synthesize h span others
    | synthesizeNamed span names =>
      rw [perform, synthesizeNamed]
      split
      · exact h
      · rw [workspace_synthesize]
        exact Workspace.get?_synthesize h span _
    | takeDiagnostics => exact h
    | checkDeclarations => exact h
    | reset => exact absurd rfl hreset.1

section Recorded

/-- These lists were given conjunctions, and they are on record together with the empty list, whose
conjunction has no problems. -/
structure Recorded (given : List (List JudgmentId)) (w : Workspace) : Prop where
  consistent : w.registry.Consistent
  recorded : ∀ parts, (w.cache.get? parts).isSome ↔ parts = [] ∨ parts ∈ given
  known : ∀ judgment, w.cache.get? [] = some judgment → (w.registry.judgment? judgment).isSome
  trivial : ∀ judgment, w.cache.get? [] = some judgment →
    Checker.judgmentProblems w.registry judgment = []

variable {w w' : Workspace} {span : Span} {parts : List JudgmentId} {made : Synthesis}
  {forms : List Form} {clauses : List Clause}

theorem Recorded.not_mem (h : Recorded given w) (hnone : w.cache.get? parts = none) :
    parts ≠ [] ∧ parts ∉ given := by
  have hnot : ¬ (parts = [] ∨ parts ∈ given) := by
    rw [← h.recorded, hnone]
    simp
  exact not_or.mp hnot

theorem Recorded.again (h : Recorded given w) (hmem : parts = [] ∨ parts ∈ given) :
    Recorded (given ++ [parts]) w where
  consistent := h.consistent
  recorded other := by
    rw [h.recorded, List.mem_append, List.mem_singleton]
    constructor
    · rintro (hnil | hother)
      · exact .inl hnil
      · exact .inr (.inl hother)
    · rintro (hnil | hother | rfl)
      · exact .inl hnil
      · exact .inr hother
      · exact hmem
  known := h.known
  trivial := h.trivial

theorem Recorded.makes (h : Recorded given w) (hnone : w.cache.get? parts = none)
    (hmakes : w.Makes span parts w' made forms clauses) : Recorded (given ++ [parts]) w' := by
  obtain ⟨hne, _⟩ := h.not_mem hnone
  have hget : w'.cache.get? [] = w.cache.get? [] := by rw [hmakes.get? hnone, if_neg hne.symm]
  refine ⟨Registry.consistent_of_steps h.consistent hmakes.steps, fun other => ?_,
    fun judgment hj => ?_, fun judgment hj => ?_⟩
  · rw [hmakes.get? hnone, List.mem_append, List.mem_singleton, ← or_assoc, ← h.recorded]
    by_cases hother : other = parts
    · simp [hother]
    · simp [hother]
  · rw [hget] at hj
    exact hmakes.extends.isSome_judgment? (h.known judgment hj)
  · rw [hget] at hj
    obtain ⟨j, hjudgment⟩ := Option.isSome_iff_exists.mp (h.known judgment hj)
    rw [hmakes.registry, Registry.judgmentProblems_entered h.consistent hjudgment]
    exact h.trivial judgment hj

theorem recorded_makes {registry : Registry} {config : Config} (hr : registry.Consistent)
    (hmakes : ({ registry, config } : Workspace).Makes {} [] w made forms clauses) :
    Recorded [] w ∧ made.diagnostics = [] := by
  have hnil : Checker.judgmentProblems w.registry made.judgment = [] := by
    refine hmakes.judgmentProblems_eq_nil fun i part m hfirst => ?_
    have hpart := hfirst.getElem?
    simp at hpart
  have hget : ∀ parts, w.cache.get? parts = if parts = [] then some made.judgment else none :=
    fun parts => hmakes.get? rfl parts
  refine ⟨⟨Registry.consistent_of_steps hr hmakes.steps, fun parts => ?_, fun judgment hj => ?_,
    fun judgment hj => ?_⟩, ?_⟩
  · rw [hget]
    by_cases hparts : parts = []
    · simp [hparts]
    · simp [hparts]
  · rw [hget, if_pos rfl] at hj
    cases hj
    exact hmakes.isSome_judgment?
  · rw [hget, if_pos rfl] at hj
    cases hj
    exact hnil
  · rw [hmakes.diagnostics, Registry.check_eq, hnil]
    simp [Registry.agree]

end Recorded

theorem found_trivial (h : Recorded given s.workspace) {judgment : JudgmentId}
    (hget : s.workspace.cache.get? [] = some judgment) (span : Span) :
    s.found s ⟨span, [], judgment⟩ = [] := by
  have hcheck : (s.registry.check judgment).1 = [] := by
    rw [Registry.check_eq, registry, h.trivial judgment hget, List.map_nil]
  simp [found, hcheck, Registry.agree]

theorem Recorded.synthesize (h : Recorded given s.workspace) (span : Span)
    (parts : List JudgmentId) :
    (∃ e, s.synthesize span parts = (s, .error e)) ∨
    ∃ t judgment, s.synthesize span parts = (t, .ok judgment) ∧
      t.diagnostics = s.diagnostics ++
        (if parts ∈ given then [] else s.found t ⟨span, parts, judgment⟩) ∧
      Recorded (given ++ [parts]) t.workspace := by
  rcases Workspace.synthesize_cases h.consistent span parts with
    ⟨judgment, hget, _⟩ | ⟨e, _, _, heq⟩ | ⟨w', made, forms, clauses, hnone, _, heq, _, hmakes⟩
  · have hmem := (h.recorded parts).mp (Option.isSome_of_eq_some hget)
    refine .inr ⟨s, judgment, synthesize_of_get? hget span, ?_, h.again hmem⟩
    by_cases hgiven : parts ∈ given
    · rw [if_pos hgiven, List.append_nil]
    · obtain rfl := hmem.resolve_right hgiven
      rw [if_neg hgiven, found_trivial h hget, List.append_nil]
  · exact .inl ⟨.synthesis e, by rw [Session.synthesize, heq]⟩
  · obtain ⟨_, hgiven⟩ := h.not_mem hnone
    refine .inr ⟨_, made.judgment, by rw [Session.synthesize, heq], ?_, h.makes hnone hmakes⟩
    rw [if_neg hgiven]
    exact congrArg (s.diagnostics ++ ·) hmakes.diagnostics

/-! ## Requests and runs -/

theorem entry_eq {request : SessionRequest} (h : request ≠ .checkDeclarations) :
    s.entry given request =
      match s.given? request with
      | none => []
      | some g => if g.parts ∈ given then [] else s.found (s.perform request) g := by
  cases request with
  | checkDeclarations => exact absurd rfl h
  | _ => rfl

/-- One request: what it hands out and what waits afterwards are what waited before and what should
be found. -/
theorem Recorded.perform (h : Recorded given s.workspace) {request : SessionRequest}
    (hreset : request ≠ .reset) :
    (s.answer request).told ++ (s.perform request).diagnostics =
        s.diagnostics ++ s.entry given request ∧
      Recorded (given ++ (s.given? request).toList.map (·.parts)) (s.perform request).workspace := by
  cases hasks : s.asks? request with
  | some asked =>
    obtain ⟨span, parts⟩ := asked
    obtain ⟨hperform, hanswer⟩ := eq_synthesize_of_asks? hasks
    have hcheck : request ≠ .checkDeclarations := by
      rintro rfl
      cases hasks
    rcases h.synthesize span parts with ⟨e, hrefused⟩ | ⟨t, judgment, hmade, hfound, ht⟩
    · have hgiven : s.given? request = none := by simp [given?, hasks, hanswer, hrefused]
      rw [entry_eq hcheck, hgiven, hperform, hanswer, hrefused]
      simpa [SessionAnswer.told] using h
    · have hgiven : s.given? request = some ⟨span, parts, judgment⟩ := by
        simp [given?, hasks, hanswer, hmade]
      rw [entry_eq hcheck, hgiven, hperform, hanswer, hmade]
      simp only [SessionAnswer.told, List.nil_append]
      exact ⟨hfound, ht⟩
  | none =>
    have hgiven : s.given? request = none := by simp [given?, hasks]
    rw [hgiven, Option.toList_none, List.map_nil, List.append_nil]
    cases request with
    | synthesize span parts => cases hasks
    | synthesizeNamed span names =>
      have hrefused : ∃ e, s.synthesizeNamed span names = (s, .error e) := by
        rw [asks?] at hasks
        split at hasks
        · cases hasks
        · rename_i e he
          exact ⟨e, by rw [synthesizeNamed, he]⟩
      obtain ⟨e, he⟩ := hrefused
      simpa [entry, hgiven, answer, Session.perform, he, SessionAnswer.told] using h
    | takeDiagnostics =>
      refine ⟨?_, h⟩
      simp [entry, hgiven, answer, Session.perform, takeDiagnostics, SessionAnswer.told]
    | checkDeclarations => exact ⟨rfl, h⟩
    | reset => exact absurd rfl hreset

theorem Recorded.run (h : Recorded given s.workspace) {requests : List SessionRequest}
    (hreset : .reset ∉ requests) :
    s.taken requests ++ (s.run requests).diagnostics =
      s.diagnostics ++ s.ledger given requests := by
  induction requests generalizing s given with
  | nil => simp [taken, answers, ledger, Session.run]
  | cons request requests ih =>
    rw [List.mem_cons, not_or] at hreset
    obtain ⟨hstep, hrecorded⟩ := h.perform (Ne.symm hreset.1)
    have hrest := ih hrecorded hreset.2
    have htaken : s.taken (request :: requests) =
        (s.answer request).told ++ (s.perform request).taken requests := rfl
    calc s.taken (request :: requests) ++ (s.run (request :: requests)).diagnostics
      _ = (s.answer request).told ++ ((s.perform request).taken requests ++
            ((s.perform request).run requests).diagnostics) := by
          rw [htaken, List.append_assoc]
          rfl
      _ = ((s.answer request).told ++ (s.perform request).diagnostics) ++
            (s.perform request).ledger _ requests := by rw [hrest, List.append_assoc]
      _ = s.diagnostics ++ s.ledger given (request :: requests) := by
          rw [hstep, List.append_assoc, ledger]

/-- Nothing that is found in a session is lost, told twice or told of something else. At every time
in a run in which the session is not set back, what was taken followed by what waits is the ledger
of the run: for each list of components, at the request that is first given its conjunction, the
disagreements of the components, all at the place of that request, and the problems of the new
judgment if judgments are validated; for each check of the declarations, the problems of the table
at that time; and nothing for a request that is refused. A list that is given its conjunction again
is given the same judgment, and the session stays as it is. -/
theorem balance_run {registry : Registry} (hr : registry.Reachable) {config : Config}
    (hconfig : config.check = .ok ()) (id : Nat) :
    ∃ s, Session.start id registry config = .ok s ∧
      (∀ requests, .reset ∉ requests →
        s.taken requests ++ (s.run requests).diagnostics = s.ledger [] requests) ∧
      ∀ earlier first g, (s.run earlier).given? first = some g →
        (∀ d ∈ ((s.run earlier).registry.agree g.parts g.span).diagnostics, d.span = g.span) ∧
        ∀ between again g', .reset ∉ between →
          (s.run (earlier ++ first :: between)).given? again = some g' → g'.parts = g.parts →
          g'.judgment = g.judgment ∧
          (s.run (earlier ++ first :: between)).perform again =
            s.run (earlier ++ first :: between) := by
  obtain ⟨s, hs⟩ := exists_start hconfig id registry
  obtain ⟨made, forms, clauses, hmakes, hdiagnostics⟩ := exists_makes_start hr.consistent hs
  obtain ⟨hrecorded, hnil⟩ := recorded_makes hr.consistent hmakes
  refine ⟨s, hs, fun requests hreset => ?_, fun earlier first g hgiven => ⟨?_, ?_⟩⟩
  · rw [hrecorded.run hreset, hdiagnostics, hnil, List.nil_append]
  · intro d hd
    rw [Registry.agree_diagnostics, List.mem_append, List.mem_map, List.mem_map] at hd
    rcases hd with ⟨_, _, rfl⟩ | ⟨_, _, rfl⟩
    · rfl
    · rfl
  · intro between again g' hbetween hagain hparts
    have hrun : s.run (earlier ++ first :: between) =
        ((s.run earlier).perform first).run between := List.foldl_append
    rw [hrun] at hagain ⊢
    have hget := get?_run (get?_of_given? hgiven) hbetween
    obtain ⟨hperform, hok⟩ := given?_eq_some hagain
    rw [hparts, synthesize_of_get? hget] at hperform hok
    exact ⟨(Except.ok.inj hok).symm, hperform⟩

/-- Judgments over two contexts, one of which assumes what it does not have. Their conjunction is
asked for, what is found is taken, and it is asked for again by name, among requests that are
refused and one for the conjunction of nothing. Then the declarations are checked. -/
theorem balance_run_sample : ∃ (r : Registry) (s t : Session) (requests : List SessionRequest),
    r.Reachable ∧ Session.start 1 r {} = .ok s ∧ s.run requests = t ∧
    s.taken requests ++ t.diagnostics = s.ledger [] requests ∧
    (s.taken requests).map (·.message) = [contextsMustAgree, assumptionsMustAgree,
      "Judgment 'and[typing,open,halts]' assumes 'tau\'', which is not in its form" ++
        " at line 2, column 1"] ∧
    (s.taken requests).map (·.span) = [.point 5 1, .point 5 1, .point 2 1] ∧
    t.diagnostics.length = 2 ∧
    t.perform (.synthesizeNamed (.point 6 1) ["typing", "open", "halts"]) = t := by
  let context : Nonterminal := ⟨⟨"Gamma'", ⟨0⟩⟩, {}⟩
  let writes : List Write := [.reserve "open" (.point 2 1),
    .define ⟨2⟩ "open" ⟨[.ofNonterminal context, .terminal "open" {}], {}⟩,
    .assume ⟨2⟩ (some ⟨⟨"tau'", ⟨2⟩⟩, .point 2 1⟩)]
  let first : SessionRequest := .synthesize (.point 5 1) [⟨0⟩, ⟨2⟩, ⟨1⟩]
  let again : SessionRequest := .synthesizeNamed (.point 6 1) ["typing", "open", "halts"]
  let between : List SessionRequest := [.takeDiagnostics, again, .synthesize {} [⟨0⟩, ⟨0⟩],
    .synthesizeNamed {} ["absent"], .synthesize {} [], .checkDeclarations]
  have hr : (Registry.sample.run writes).Reachable :=
    ⟨Registry.typingAndHalting ++ writes, List.foldl_append⟩
  have hconfig : ({} : Config).check = .ok () := rfl
  obtain ⟨s, hs, hbalance, honce⟩ := balance_run hr hconfig 1
  have hreset : .reset ∉ between := by simp [between, again]
  have htold := hbalance (first :: between) (by simpa [first] using hreset)
  have hrun : (s.run []).given? first = some ⟨.point 5 1, [⟨0⟩, ⟨2⟩, ⟨1⟩], ⟨4⟩⟩ ∧
      (s.run ([] ++ first :: between)).given? again =
        some ⟨.point 6 1, [⟨0⟩, ⟨2⟩, ⟨1⟩], ⟨4⟩⟩ ∧
      (s.taken (first :: between)).map (·.message) = [contextsMustAgree, assumptionsMustAgree,
        "Judgment 'and[typing,open,halts]' assumes 'tau\'', which is not in its form" ++
          " at line 2, column 1"] ∧
      (s.taken (first :: between)).map (·.span) = [.point 5 1, .point 5 1, .point 2 1] ∧
      (s.run (first :: between)).diagnostics.length = 2 := by
    have hseed : s = (unseeded 1 (Registry.sample.run writes) {}).seed.1 := by
      rw [(start_eq_ok_iff.mp hs).2]
    rw [hseed]
    decide +kernel
  obtain ⟨hfirst, hagain, hmessages, hspans, hlength⟩ := hrun
  obtain ⟨_, hsame⟩ := (honce [] first _ hfirst).2 between again _ hreset hagain rfl
  exact ⟨_, s, _, first :: between, hr, hs, rfl, htold, hmessages, hspans, hlength, hsame⟩

end Session
end Inference
