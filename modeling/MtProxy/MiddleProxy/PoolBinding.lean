import MtProxy.MiddleProxy.PoolSteps

/-! Which clients are bound. A client should be bound to a writer only while it is registered; once
    it was told `Close` and unregistered, no later send should bind it again. `send_proxy_req` does
    not check this: it may itself remove the dead writer of its client, which unregisters the client,
    and go on to bind it to the next writer.

        bind_writer(c)  with c registered      every bound client stays registered
        bind_writer(c)  with c unregistered    c is bound and unknown

    Everything else keeps bound clients registered, so the runs in which this never fails are those
    in which every `bind_writer` finds its client registered. -/

namespace MtProxy.MiddleProxy
open Schemes

/-- The client was registered, and unregistered after that. -/
def Gone (h : List PoolOp) (c : ℕ) : Prop := [.register c, .unregister c].Sublist h

/-- Every bound client is registered, and none that has gone is bound again. -/
structure NoZombie (cfg : PoolConfig) : Prop where
  registered : ∀ c w, cfg.shared.registry.writerForConn c = some w →
    cfg.shared.registry.map c ≠ none
  gone : ∀ c, Gone cfg.history c → cfg.shared.registry.writerForConn c = none

/-- A `bind_writer` finds its client registered. -/
def bindsRegistered (cfg : PoolConfig) : PoolOp → Bool
  | .bindWriter c _ _ => (cfg.shared.registry.map c).isSome
  | _ => true

/-- Ids are handed out once: a client that has gone does not come back. -/
structure IdsFresh (cfg : PoolConfig) : Prop where
  handed_lt : ∀ c, .register c ∈ cfg.history → c < cfg.shared.registry.nextId
  gone : ∀ c, Gone cfg.history c → cfg.shared.registry.map c = none

theorem gone_append {h : List PoolOp} {e : PoolOp} {c : ℕ} :
    Gone (h ++ [e]) c ↔ Gone h c ∨ .register c ∈ h ∧ e = .unregister c := by
  unfold Gone
  constructor
  · intro hsub
    obtain ⟨l₁, l₂, heq, h₁, h₂⟩ := List.sublist_append_iff.mp hsub
    match l₁, heq with
    | [], heq =>
      have hlen := h₂.length_le
      rw [← List.nil_append l₂, ← heq] at hlen
      simp at hlen
    | [a], heq =>
      obtain ⟨rfl, rfl⟩ : .register c = a ∧ [.unregister c] = l₂ := by simpa using heq
      exact .inr ⟨List.singleton_sublist.mp h₁,
        (List.mem_singleton.mp (List.singleton_sublist.mp h₂)).symm⟩
    | [a, b], heq =>
      obtain ⟨rfl, rfl, rfl⟩ : .register c = a ∧ .unregister c = b ∧ [] = l₂ := by simpa using heq
      exact .inl h₁
    | a :: b :: d :: l, heq => simp at heq
  · rintro (hsub | ⟨hmem, rfl⟩)
    · exact hsub.trans (List.sublist_append_left h [e])
    · exact (List.singleton_sublist.mpr hmem).append (List.Sublist.refl [PoolOp.unregister c])

theorem idsFresh_step {cfg cfg' : PoolConfig} {l : ℕ × Answer} (hI : IdsFresh cfg)
    (hstep : poolProgram.step cfg l = some cfg') : IdsFresh cfg' := by
  obtain ⟨f, fs, sp, e, hspec, -, hshared, hhist⟩ := step_op hstep
  -- no operation but `register` adds a client, and it takes the next id
  have hkeep : (∀ c, e ≠ .register c) → cfg'.shared.registry.nextId = cfg.shared.registry.nextId ∧
      ∀ c, cfg.shared.registry.map c = none → cfg'.shared.registry.map c = none := by
    intro hne
    rw [hshared]
    cases e with
    | register c => exact absurd rfl (hne c)
    | unregister c =>
      refine ⟨by simp [PoolOp.effect], fun c' hc' => ?_⟩
      by_cases hcc : c' = c <;> simp [PoolOp.effect, hcc, hc']
    | _ => exact ⟨rfl, fun _ h => h⟩
  constructor
  · intro c hc
    rw [hhist, List.mem_append, List.mem_singleton] at hc
    by_cases he : ∃ d, e = .register d
    · obtain ⟨d, rfl⟩ := he
      obtain ⟨rfl, -⟩ := hspec
      rw [hshared]
      show c < cfg.shared.registry.nextId + 1
      rcases hc with hc | hc
      · exact Nat.lt_succ_of_lt (hI.handed_lt c hc)
      · injection hc with hc
        omega
    · rw [(hkeep (fun d hd => he ⟨d, hd⟩)).1]
      exact hI.handed_lt c (hc.resolve_right fun h => he ⟨c, h.symm⟩)
  · intro c hc
    rw [hhist, gone_append] at hc
    rcases hc with hc | ⟨-, rfl⟩
    · by_cases he : ∃ d, e = .register d
      · obtain ⟨d, rfl⟩ := he
        obtain ⟨rfl, -⟩ := hspec
        have hlt := hI.handed_lt c (hc.subset (by simp))
        rw [hshared]
        exact (Function.update_of_ne (Nat.ne_of_lt hlt) ..).trans (hI.gone c hc)
      · exact (hkeep (fun d hd => he ⟨d, hd⟩)).2 c (hI.gone c hc)
    · rw [hshared]
      simp [PoolOp.effect]

/-- A step keeps bound clients registered exactly if it binds none that is not. -/
theorem noZombie_step {cfg cfg' : PoolConfig} {l : ℕ × Answer} (hI : IdsFresh cfg)
    (hP : NoZombie cfg) (hstep : poolProgram.step cfg l = some cfg') :
    NoZombie cfg' ↔ ∀ e ∈ poolProgram.op cfg l, bindsRegistered cfg e = true := by
  have hI' := idsFresh_step hI hstep
  obtain ⟨f, fs, sp, e, hspec, hop, hshared, hhist⟩ := step_op hstep
  simp only [hop, Option.mem_some_iff, forall_eq']
  constructor
  · intro hP'
    cases e with
    | bindWriter c w m =>
      have hreg := hP'.registered c w (by rw [hshared]; simp [PoolOp.effect])
      rw [hshared] at hreg
      exact Option.isSome_iff_ne_none.mpr hreg
    | _ => rfl
  · intro hG
    have hreg : ∀ c w, cfg'.shared.registry.writerForConn c = some w →
        cfg'.shared.registry.map c ≠ none := by
      intro c w
      rw [hshared]
      cases e with
      | register d =>
        intro hc
        by_cases hcd : c = cfg.shared.registry.nextId
        · simp [PoolOp.effect, ConnRegistry.register, hcd]
        · simpa [PoolOp.effect, ConnRegistry.register, hcd] using hP.registered c w hc
      | unregister d =>
        by_cases hcd : c = d
        · simp [PoolOp.effect, hcd]
        · simpa [PoolOp.effect, hcd] using hP.registered c w
      | bindWriter d v m =>
        by_cases hcd : c = d
        · subst hcd
          exact fun _ => Option.isSome_iff_ne_none.mp hG
        · simpa [PoolOp.effect, hcd, ConnRegistry.bindWriter] using hP.registered c w
      | writerLost v discard conns =>
        intro hc
        simp only [PoolOp.effect, ConnRegistry.writerLost] at hc
        split_ifs at hc
        exact hP.registered c w hc
      | _ => exact hP.registered c w
    refine ⟨hreg, fun c hc => ?_⟩
    by_contra hne
    obtain ⟨w, hw⟩ := Option.ne_none_iff_exists'.mp hne
    exact hreg c w hw (hI'.gone c hc)

/-- In a run of the pool, whatever the interleaving, every bound client is registered in every state
    exactly if every `bind_writer` of the run finds its client registered. -/
theorem bound_clients_registered_iff (start : ℕ) (ls : List (ℕ × Answer)) (cfg : PoolConfig)
    (hrun : run poolProgram.step (initial start) ls = some cfg) :
    (∀ ls', ls' <+: ls → ∀ cfg', run poolProgram.step (initial start) ls' = some cfg' →
      NoZombie cfg') ↔
    poolProgram.Meets bindsRegistered (initial start) ls := by
  refine runMeets_iff (I := IdsFresh) (fun _ _ _ => idsFresh_step) (fun _ _ _ => noZombie_step) ls
    ⟨?_, ?_⟩ ⟨?_, ?_⟩ hrun
  · intro c hc
    cases hc
  · intro c _
    rfl
  · intro c w hc
    cases hc
  · intro c _
    rfl

/-- Client 1 registers, writer 1 connects, and the first payload of client 1 is enqueued to it. -/
def sendRun (addr : SocketAddr) : List (ℕ × Answer) :=
  let m : ConnMeta := ⟨2, addr, addr, 0⟩
  [(0, .startRelay), (0, .startConnect addr), (2, .go), (2, .go), (2, .go), (1, .command m), (1, .go),
    (1, .go), (1, .order [1]), (1, .accepts false), (1, .sent)]

/-- Client 1 is bound to writer 1. -/
def bindRun (addr : SocketAddr) : List (ℕ × Answer) := sendRun addr ++ [(1, .go)]

/-- Writer 2 connects, the channel of writer 1 closes, and client 1 sends again: it finds the channel
    closed, removes writer 1, which closes and unregisters client 1, and goes on with writer 2. -/
def rebindRun (addr : SocketAddr) : List (ℕ × Answer) :=
  let m : ConnMeta := ⟨2, addr, addr, 0⟩
  bindRun addr ++ [(0, .startConnect addr), (6, .go), (6, .go), (6, .go), (3, .exit), (1, .command m),
    (1, .go), (1, .closed), (1, .go), (1, .go), (1, .go), (1, .go), (1, .pick 1), (1, .go), (1, .go),
    (1, .go), (1, .go), (1, .order [2]), (1, .accepts false), (1, .sent), (1, .go)]

theorem bound_clients_registered_first_bind :
    let addr : SocketAddr := ⟨.v4 ⟨[127, 0, 0, 1], rfl⟩, 443⟩
    ∃ cfg, run poolProgram.step (initial 1) (bindRun addr) = some cfg ∧
      cfg.shared.registry.writerForConn 1 = some 1 ∧ NoZombie cfg := by
  intro addr
  have heval : (run poolProgram.step (initial 1) (bindRun addr)).map (fun cfg =>
      cfg.shared.registry.writerForConn 1) = some (some 1) := by decide +kernel
  obtain ⟨cfg, hrun, hw⟩ := Option.map_eq_some_iff.mp heval
  exact ⟨cfg, hrun, hw, (bound_clients_registered_iff 1 (bindRun addr) cfg hrun).mpr
    (by decide +kernel) (bindRun addr) (List.prefix_refl _) cfg hrun⟩

/-- A client that was told `Close` and unregistered, and is bound to another writer after that. -/
theorem closed_client_bound_again :
    let addr : SocketAddr := ⟨.v4 ⟨[127, 0, 0, 1], rfl⟩, 443⟩
    ∃ cfg, run poolProgram.step (initial 1) (rebindRun addr) = some cfg ∧
      .routeClose 1 ∈ cfg.history ∧ .unregister 1 ∈ cfg.history ∧
      cfg.shared.registry.writerForConn 1 = some 2 ∧ cfg.shared.registry.map 1 = none ∧
      ¬ NoZombie cfg := by
  intro addr
  have heval : (run poolProgram.step (initial 1) (rebindRun addr)).map (fun cfg =>
      (decide (.routeClose 1 ∈ cfg.history), decide (.unregister 1 ∈ cfg.history),
        cfg.shared.registry.writerForConn 1, cfg.shared.registry.map 1)) =
      some (true, true, some 2, none) := by decide +kernel
  obtain ⟨cfg, hrun, hcfg⟩ := Option.map_eq_some_iff.mp heval
  simp only [Prod.mk.injEq, decide_eq_true_eq] at hcfg
  obtain ⟨hclose, hgone, hw, hc⟩ := hcfg
  exact ⟨cfg, hrun, hclose, hgone, hw, hc, fun h => h.registered 1 2 hw hc⟩

end MtProxy.MiddleProxy
