import MtProxy.MiddleProxy.Selection
import MtProxy.Schemes.Run

/-! Where a client may be routed. The candidates of a pass are the eligible writers on the endpoints of
    the target DC, and all the eligible writers if there is none on them; a call binds to one of them.

        snapshot ─▶ look (without warm writers) ─▶ look (with them) ─▶ ⋯ scan ⋯ ─▶ bound
        └──────────────── the pass ────────────────┘

    The pass whose candidates were scanned is the last one that looked for any. -/

namespace MtProxy.MiddleProxy
open Schemes Reinit

/-! ### The candidates of a pass -/

namespace SelectionPool

section
variable (pool : SelectionPool) (writers : List MeWriter) (targetDc : ℤ) (includeWarm : Bool)

/-- An eligible writer stands on the endpoints of the target DC. -/
def ServedDirectly : Prop :=
  ∃ i : Fin writers.length, pool.writerEligibleForSelection (writers.get i) includeWarm = true ∧
    (writers.get i).addr ∈ pool.preferredEndpoints targetDc

theorem mem_candidateIndices_iff (i : Fin writers.length) :
    i ∈ pool.candidateIndicesForDc writers targetDc includeWarm ↔
      pool.writerEligibleForSelection (writers.get i) includeWarm = true ∧
        (pool.ServedDirectly writers targetDc includeWarm →
          (writers.get i).addr ∈ pool.preferredEndpoints targetDc) := by
  have hmem (j : Fin writers.length) : j ∈ (List.finRange writers.length).filter
      (fun i => pool.writerEligibleForSelection (writers.get i) includeWarm) ↔
        pool.writerEligibleForSelection (writers.get j) includeWarm = true := by
    rw [List.mem_filter]
    exact and_iff_right (List.mem_finRange j)
  simp only [candidateIndicesForDc]
  split_ifs with hpreferred hout
  · rw [hmem]
    refine (and_iff_left ?_).symm
    rintro ⟨j, -, haddr⟩
    rw [hpreferred] at haddr
    cases haddr
  · rw [hmem]
    refine (and_iff_left ?_).symm
    rintro ⟨j, hj, haddr⟩
    have hjout := List.filter_eq_nil_iff.mp hout j ((hmem j).mpr hj)
    exact absurd (decide_eq_true haddr) hjout
  · rw [List.mem_filter, hmem, decide_eq_true_iff]
    refine and_congr_right fun _ => ?_
    obtain ⟨j, hj⟩ := List.exists_mem_of_ne_nil _ hout
    rw [List.mem_filter, hmem, decide_eq_true_iff] at hj
    have hserved : pool.ServedDirectly writers targetDc includeWarm := ⟨j, hj.1, hj.2⟩
    exact ⟨fun haddr _ => haddr, fun haddr => haddr hserved⟩

end

end SelectionPool

/-! ### The passes of a call -/

namespace SelectPc

def TakesSnapshot : SelectPc → Prop
  | .snapshot | .refresh _ => True
  | _ => False

/-- About to look for candidates among the writers of a snapshot. -/
def LooksIn (snapshot : List MeWriter) (withWarm : Bool) : SelectPc → Prop
  | .candidates writers includeWarm | .emergencyCandidates writers includeWarm _ =>
    writers = snapshot ∧ includeWarm = withWarm
  | _ => False

def Looking : SelectPc → Prop
  | .candidates _ _ | .emergencyCandidates _ _ _ => True
  | _ => False

end SelectPc

section
variable (dc : ℤ) (es : List (SelectionPool × SelectAnswer))

/-- Where a call for the target DC stands after these steps. -/
def StandsAt (P : SelectPc → Prop) : Prop :=
  ∃ s, run SelectState.step (.start dc) es = some s ∧ P s.pc

/-- The call is in the pass that began with a snapshot of this pool. -/
def InPass (snapshot : SelectionPool) : Prop :=
  ∃ before looked, es = before ++ (snapshot, .go) :: looked ∧
    StandsAt dc before SelectPc.TakesSnapshot ∧
      ∀ looked', looked' <+: looked → StandsAt dc (before ++ (snapshot, .go) :: looked')
        (fun pc => ∃ withWarm, pc.LooksIn snapshot.writers withWarm)

/-- The last time the call looked for candidates, it was in the pass of this snapshot, and the pool was
    this one. -/
def ChoseFrom (snapshot pool : SelectionPool) (includeWarm : Bool) : Prop :=
  ∃ before after, es = before ++ (pool, .go) :: after ∧ InPass dc before snapshot ∧
    StandsAt dc before (SelectPc.LooksIn snapshot.writers includeWarm) ∧
      ∀ after', after' <+: after → ¬ StandsAt dc (before ++ (pool, .go) :: after') SelectPc.Looking

/-- A snapshot of the writers, taken by the pass the call is in. -/
def Seen (writers : List MeWriter) : Prop :=
  ∃ snapshot, InPass dc es snapshot ∧ snapshot.writers = writers

/-- The candidates of the last pass. -/
def Chosen (writers : List MeWriter) (cs : List (Fin writers.length)) : Prop :=
  ∃ snapshot pool includeWarm, ChoseFrom dc es snapshot pool includeWarm ∧
    snapshot.writers = writers ∧ pool.candidateIndicesForDc writers dc includeWarm = cs

/-- What a call holds on to comes from its last pass. -/
def SelectPc.Backed : SelectPc → Prop
  | .candidates writers _ | .emergencyCandidates writers _ _ => Seen dc es writers
  | .sort writers cs => Chosen dc es writers cs
  | .scan writers todo fallback =>
    ∃ cs, Chosen dc es writers cs ∧ todo ⊆ cs ∧ ∀ i ∈ fallback, i ∈ cs
  | .wait writers idx => ∃ cs, Chosen dc es writers cs ∧ idx ∈ cs
  | .bound w => ∃ writers cs, Chosen dc es writers cs ∧ ∃ i ∈ cs, (writers.get i) = w
  | _ => True

end

section
variable {dc : ℤ} {es : List (SelectionPool × SelectAnswer)} {e : SelectionPool × SelectAnswer}
  {s s' : SelectState} {snapshot pool : SelectionPool} {includeWarm : Bool} {writers : List MeWriter}

theorem StandsAt.of_run {pc : SelectPc} {P : SelectPc → Prop}
    (h : run SelectState.step (.start dc) es = some s) (hpc : s.pc = pc) (hP : P pc) :
    StandsAt dc es P := ⟨s, h, hpc ▸ hP⟩

/-- A call stands at one place only. -/
theorem StandsAt.not_looking (h : run SelectState.step (.start dc) es = some s)
    (hpc : ¬ s.pc.Looking) : ¬ StandsAt dc es SelectPc.Looking := by
  rintro ⟨t, ht, hlooking⟩
  obtain rfl := Option.some.inj (h.symm.trans ht)
  exact hpc hlooking

theorem InPass.begin (h : StandsAt dc es SelectPc.TakesSnapshot)
    (hlook : StandsAt dc (es ++ [(snapshot, .go)])
      (fun pc => ∃ withWarm, pc.LooksIn snapshot.writers withWarm)) :
    InPass dc (es ++ [(snapshot, .go)]) snapshot := by
  refine ⟨es, [], rfl, h, fun looked' hprefix => ?_⟩
  obtain rfl := List.prefix_nil.mp hprefix
  exact hlook

theorem InPass.concat (h : InPass dc es snapshot)
    (hlook : StandsAt dc (es ++ [e]) (fun pc => ∃ withWarm, pc.LooksIn snapshot.writers withWarm)) :
    InPass dc (es ++ [e]) snapshot := by
  obtain ⟨before, looked, rfl, hbefore, hlooked⟩ := h
  refine ⟨before, looked ++ [e], by simp, hbefore, fun looked' hprefix => ?_⟩
  rcases List.prefix_concat_iff.mp hprefix with rfl | hprefix
  · simpa using hlook
  · exact hlooked looked' hprefix

theorem ChoseFrom.now (h : InPass dc es snapshot)
    (hlook : StandsAt dc es (SelectPc.LooksIn snapshot.writers includeWarm))
    (hafter : ¬ StandsAt dc (es ++ [(pool, .go)]) SelectPc.Looking) :
    ChoseFrom dc (es ++ [(pool, .go)]) snapshot pool includeWarm := by
  refine ⟨es, [], rfl, h, hlook, fun after' hprefix => ?_⟩
  obtain rfl := List.prefix_nil.mp hprefix
  exact hafter

theorem ChoseFrom.concat (h : ChoseFrom dc es snapshot pool includeWarm)
    (hafter : ¬ StandsAt dc (es ++ [e]) SelectPc.Looking) :
    ChoseFrom dc (es ++ [e]) snapshot pool includeWarm := by
  obtain ⟨before, after, rfl, hpass, hlook, hquiet⟩ := h
  refine ⟨before, after ++ [e], by simp, hpass, hlook, fun after' hprefix => ?_⟩
  rcases List.prefix_concat_iff.mp hprefix with rfl | hprefix
  · simpa using hafter
  · exact hquiet after' hprefix

theorem Chosen.concat {cs : List (Fin writers.length)} (h : Chosen dc es writers cs)
    (hafter : ¬ StandsAt dc (es ++ [e]) SelectPc.Looking) : Chosen dc (es ++ [e]) writers cs := by
  obtain ⟨snapshot, pool, includeWarm, hchose, hwriters, hcs⟩ := h
  exact ⟨snapshot, pool, includeWarm, hchose.concat hafter, hwriters, hcs⟩

theorem mem_tryOrder {pool : SelectionPool} {cs : List (Fin writers.length)}
    {i : Fin writers.length} : i ∈ pool.tryOrder cs ↔ i ∈ cs := by
  rw [SelectionPool.tryOrder, cycleFrom_eq_rotate, List.mem_rotate, SelectionPool.sortCandidates]
  split_ifs
  · exact List.mem_insertionSort _
  · exact List.mem_insertionSort _

namespace SelectState

/-- What is held on to at a place the call goes to, given that it stands there then. -/
theorem goto_backed {pc : SelectPc}
    (hpc : (∀ {P : SelectPc → Prop}, P pc → StandsAt dc (es ++ [e]) P) →
      (¬ pc.Looking → ¬ StandsAt dc (es ++ [e]) SelectPc.Looking) → pc.Backed dc (es ++ [e]))
    (hrun : run step (.start dc) (es ++ [e]) = some s') (hgoto : s.goto pc = some s') :
    s'.targetDc = s.targetDc ∧ s'.pc.Backed dc (es ++ [e]) := by
  cases hgoto
  exact ⟨rfl, hpc (StandsAt.of_run hrun rfl) (StandsAt.not_looking hrun)⟩

/-- A pass ends with its candidates or goes on without any. -/
theorem step_backed {a : SelectAnswer} (hrun : run step (.start s.targetDc) es = some s)
    (h : s.pc.Backed s.targetDc es) (hrun' : run step (.start s.targetDc) (es ++ [(pool, a)]) = some s')
    (hstep : s.step (pool, a) = some s') :
    s'.targetDc = s.targetDc ∧ s'.pc.Backed s.targetDc (es ++ [(pool, a)]) := by
  revert hstep
  fun_cases step s (pool, a) with
  -- no step
  | case12 | case18 | case19 | case21 | case31 | case36 | case42 => exact nofun
  -- a new snapshot
  | case9 _ hgo hpc =>
    obtain rfl : a = .go := hgo
    refine goto_backed (fun hat _ => ?_) hrun'
    exact ⟨pool, .begin (.of_run hrun hpc trivial) (hat ⟨false, rfl, rfl⟩), rfl⟩
  | case26 _ todo hgo hpc =>
    obtain rfl : a = .go := hgo
    refine goto_backed (fun hat _ => ?_) hrun'
    exact ⟨pool, .begin (.of_run hrun hpc trivial) (hat ⟨false, rfl, rfl⟩), rfl⟩
  -- the candidates of a pass
  | case13 _ writers includeWarm hgo hpc cs =>
    obtain rfl : a = .go := hgo
    rw [hpc] at h
    obtain ⟨snapshot, hpass, rfl⟩ := h
    refine goto_backed (fun _ hquiet => ?_) hrun'
    exact ⟨snapshot, pool, includeWarm,
      .now hpass (.of_run hrun hpc ⟨rfl, rfl⟩) (hquiet not_false), rfl, rfl⟩
  | case27 _ writers includeWarm todo hgo hpc cs =>
    obtain rfl : a = .go := hgo
    rw [hpc] at h
    obtain ⟨snapshot, hpass, rfl⟩ := h
    refine goto_backed (fun _ hquiet => ?_) hrun'
    exact ⟨snapshot, pool, includeWarm,
      .now hpass (.of_run hrun hpc ⟨rfl, rfl⟩) (hquiet not_false), rfl, rfl⟩
  -- none without warm writers: the same pass with them
  | case14 _ writers includeWarm _ hpc cs =>
    rw [hpc] at h
    obtain ⟨snapshot, hpass, rfl⟩ := h
    exact goto_backed (fun hat _ => ⟨snapshot, hpass.concat (hat ⟨true, rfl, rfl⟩), rfl⟩) hrun'
  | case28 _ writers includeWarm todo _ hpc cs =>
    rw [hpc] at h
    obtain ⟨snapshot, hpass, rfl⟩ := h
    exact goto_backed (fun hat _ => ⟨snapshot, hpass.concat (hat ⟨true, rfl, rfl⟩), rfl⟩) hrun'
  | case16 _ writers includeWarm _ hpc cs =>
    intro hstep
    cases hstep
    exact ⟨rfl, trivial⟩
  | case30 _ writers cs _ hpc =>
    rw [hpc] at h
    exact goto_backed (fun _ hquiet =>
      ⟨cs, h.concat (hquiet not_false), fun i hi => mem_tryOrder.mp hi, nofun⟩) hrun'
  -- the scan
  | case32 _ writers idx todo fallback _ hpc =>
    rw [hpc] at h
    obtain ⟨cs, hchosen, htodo, hfallback⟩ := h
    exact goto_backed (fun _ hquiet =>
      ⟨cs, hchosen.concat (hquiet not_false), (List.cons_subset.mp htodo).2, hfallback⟩) hrun'
  | case33 _ writers idx todo fallback hpc =>
    rw [hpc] at h
    obtain ⟨cs, hchosen, htodo, -⟩ := h
    exact goto_backed (fun _ hquiet =>
      ⟨writers, cs, hchosen.concat (hquiet not_false), idx, (List.cons_subset.mp htodo).1, rfl⟩) hrun'
  | case34 _ writers idx todo fallback hpc =>
    rw [hpc] at h
    obtain ⟨cs, hchosen, htodo, hfallback⟩ := h
    obtain ⟨hidx, hrest⟩ := List.cons_subset.mp htodo
    refine goto_backed (fun _ hquiet => ⟨cs, hchosen.concat (hquiet not_false), hrest, ?_⟩) hrun'
    intro i hi
    cases fallback with
    | none => exact Option.some.inj hi ▸ hidx
    | some j => exact hfallback i hi
  | case35 _ writers idx todo fallback hpc =>
    rw [hpc] at h
    obtain ⟨cs, hchosen, htodo, hfallback⟩ := h
    exact goto_backed (fun _ hquiet =>
      ⟨cs, hchosen.concat (hquiet not_false), (List.cons_subset.mp htodo).2, hfallback⟩) hrun'
  | case38 _ writers idx _ hpc =>
    rw [hpc] at h
    obtain ⟨cs, hchosen, -, hfallback⟩ := h
    exact goto_backed (fun _ hquiet =>
      ⟨cs, hchosen.concat (hquiet not_false), hfallback idx rfl⟩) hrun'
  | case40 writers idx _ hpc =>
    rw [hpc] at h
    obtain ⟨cs, hchosen, hidx⟩ := h
    exact goto_backed (fun _ hquiet =>
      ⟨writers, cs, hchosen.concat (hquiet not_false), idx, hidx, rfl⟩) hrun'
  -- nothing is held on to
  | _ => exact goto_backed (fun _ _ => trivial) hrun'

end SelectState

theorem run_backed (hrun : run SelectState.step (.start dc) es = some s) :
    s.targetDc = dc ∧ s.pc.Backed dc es := by
  refine run_history (I := fun past s => s.targetDc = dc ∧ s.pc.Backed dc past)
    ⟨rfl, trivial⟩ ?_ es hrun
  rintro past t ⟨pool, a⟩ t' hpast ⟨rfl, hbacked⟩ hstep
  exact SelectState.step_backed hpast hbacked (run_concat_iff.mpr ⟨t, hpast, hstep⟩) hstep

end

/-! ### Routing -/

/-- The candidates are eligible writers, on the endpoints of the target DC where there is one there; and
    the writer a call binds to was such a candidate when the call last looked for them. -/
theorem routed_within_candidates :
    (∀ (pool : SelectionPool) (writers : List MeWriter) (dc : ℤ) (includeWarm : Bool)
      (i : Fin writers.length), i ∈ pool.candidateIndicesForDc writers dc includeWarm ↔
        pool.writerEligibleForSelection (writers.get i) includeWarm = true ∧
          (pool.ServedDirectly writers dc includeWarm →
            (writers.get i).addr ∈ pool.preferredEndpoints dc)) ∧
      ∀ (dc : ℤ) (es : List (SelectionPool × SelectAnswer)) (s : SelectState) (w : MeWriter),
        run SelectState.step (.start dc) es = some s → s.pc = .bound w →
          ∃ snapshot pool includeWarm, ChoseFrom dc es snapshot pool includeWarm ∧
            w ∈ snapshot.writers ∧ pool.writerEligibleForSelection w includeWarm = true ∧
              (pool.ServedDirectly snapshot.writers dc includeWarm →
                w.addr ∈ pool.preferredEndpoints dc) := by
  refine ⟨fun pool writers dc includeWarm i =>
    pool.mem_candidateIndices_iff writers dc includeWarm i, ?_⟩
  intro dc es s w hrun hbound
  obtain ⟨-, hbacked⟩ := run_backed hrun
  rw [hbound] at hbacked
  obtain ⟨_, _, ⟨snapshot, pool, includeWarm, hchose, rfl, rfl⟩, i, hi, rfl⟩ := hbacked
  obtain ⟨heligible, hdirect⟩ := (pool.mem_candidateIndices_iff _ dc includeWarm i).mp hi
  exact ⟨snapshot, pool, includeWarm, hchose, List.getElem_mem _, heligible, hdirect⟩

def loopback (port : UInt16) : SocketAddr := ⟨.v4 ⟨[127, 0, 0, 1], rfl⟩, port⟩

def freshFlags : WriterFlags := ⟨.active, false, false, 0, false⟩

/-- A pool with one writer, and with endpoints for DC 2. -/
def oneWriterPool (w : MeWriter) : SelectionPool where
  writers := [w]
  generationOf _ := 1
  flags _ := freshFlags
  capacity _ := 1
  maps := ⟨Finmap.insert 2 [loopback 2] ∅, ∅⟩
  decision := ⟨true, false, 4, false⟩
  defaultDc := 0
  activeGeneration := 1
  bindStaleMode := .never
  bindStaleTtlSecs := 0
  nowEpochSecs := 0
  deterministicWriterSort := true
  rr := 0

/-- A call that finds its writer in the first pass. -/
def firstPass (pool : SelectionPool) : List (SelectionPool × SelectAnswer) :=
  [(pool, .writer none), (pool, .go), (pool, .go), (pool, .go), (pool, .channel .ready)]

/-- A writer elsewhere before one on the endpoint of DC 2, as far as the pool knows that endpoint. -/
def twoWriterPool (id : ℕ) (endpoints : List SocketAddr) : SelectionPool :=
  { oneWriterPool ⟨id, loopback 4⟩ with
    writers := [⟨id, loopback 4⟩, ⟨id + 1, loopback 2⟩]
    maps := ⟨Finmap.insert 2 endpoints ∅, ∅⟩ }

/-- A call whose first pass finds the channels of both writers closed. By its second pass there are two
    others, and the endpoint of DC 2 is known. -/
def secondPass : List (SelectionPool × SelectAnswer) :=
  let early := twoWriterPool 1 []
  [(early, .writer none), (early, .go), (early, .go), (early, .go), (early, .channel .closed),
    (early, .channel .closed), (early, .go)] ++ firstPass (twoWriterPool 3 [loopback 2])

theorem routed_within_candidates_second_pass :
    ∃ snapshot pool includeWarm, ChoseFrom 2 secondPass snapshot pool includeWarm ∧
      ⟨4, loopback 2⟩ ∈ snapshot.writers ∧
        pool.writerEligibleForSelection ⟨4, loopback 2⟩ includeWarm = true ∧
          (pool.ServedDirectly snapshot.writers 2 includeWarm →
            loopback 2 ∈ pool.preferredEndpoints 2) :=
  routed_within_candidates.2 2 _ ⟨2, 0, .bound ⟨4, loopback 2⟩⟩ ⟨4, loopback 2⟩ rfl rfl

/-- With a writer elsewhere only, the call binds to it and has not tried to connect to DC 2. -/
theorem routed_elsewhere :
    ∃ s w, run SelectState.step (.start 2) (firstPass (oneWriterPool ⟨1, loopback 4⟩)) = some s ∧
      s.pc = .bound w ∧ s.emergencyAttempts = 0 ∧
        (oneWriterPool ⟨1, loopback 4⟩).preferredEndpoints 2 = [loopback 2] ∧
          w.addr ∉ (oneWriterPool ⟨1, loopback 4⟩).preferredEndpoints 2 :=
  ⟨⟨2, 0, .bound ⟨1, loopback 4⟩⟩, ⟨1, loopback 4⟩, rfl, rfl, rfl, by decide, by decide⟩

end MtProxy.MiddleProxy
