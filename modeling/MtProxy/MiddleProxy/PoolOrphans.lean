import MtProxy.MiddleProxy.PoolAccounting
import MtProxy.MiddleProxy.PoolBinding

/-! What becomes of the clients of a writer that leaves the pool. A send enqueues the payload first and
    binds the client after that; a removal takes the writer off the list, and then `writer_lost`
    purges its bindings and returns the clients to close.

        send     enqueue ───────────────────────▶ bind
        remove               erase ──▶ writer_lost ──▶ Close, unregister

    A bind that comes after `writer_lost` is never undone, and the clients that `writer_lost` returns
    to `prune_closed_writers` or to the drain loop are forgotten. In the runs where neither happens,
    every client is bound to a listed writer or on its way to be closed. -/

namespace MtProxy.MiddleProxy
open Schemes

/-- The operations that do not touch the registry, apart from `enqueue` and `route`. -/
def PoolOp.quiet : PoolOp → Bool
  | .allocId | .pushWriter _ | .countUp | .removeWriter _ | .retain _ | .triggerRefill _
  | .markDraining _ | .closeChannel _ | .claimCleanup _ => true
  | _ => false

section
variable {p : MePool} {h : List PoolOp} {f : Frame} {R : Multiset Frame} {e : PoolOp}
  {fs : List Frame} {sp : List (List Frame)}

/-- A quiet step concerns no client. -/
theorem quiet_spec (hq : e.quiet = true) (hspec : OpSpec p f fs sp e) :
    (e.effect p).registry = p.registry ∧ binds f = none ∧ closes f = [] ∧
      ∀ g ∈ fs ++ sp.flatten, owner g = none ∧ seeks g = none ∧ resends g = none ∧ binds g = none ∧
        tries g = [] := by
  cases e with
  | removeWriter v =>
    obtain ⟨discard, -, rfl, rfl, rfl⟩ := hspec
    refine ⟨rfl, rfl, rfl, List.forall_mem_cons.mpr ⟨⟨rfl, rfl, rfl, rfl, rfl⟩, ?_⟩⟩
    split
    · exact List.forall_mem_singleton.mpr ⟨rfl, rfl, rfl, rfl, rfl⟩
    · refine List.forall_mem_cons.mpr ⟨⟨rfl, rfl, rfl, rfl, rfl⟩, ?_⟩
      exact List.forall_mem_singleton.mpr ⟨rfl, rfl, rfl, rfl, rfl⟩
  | allocId =>
    obtain ⟨addr, rfl, rfl, rfl⟩ := hspec
    refine ⟨rfl, rfl, rfl, List.forall_mem_cons.mpr ⟨⟨rfl, rfl, rfl, rfl, rfl⟩, ?_⟩⟩
    exact List.forall_mem_singleton.mpr ⟨rfl, rfl, rfl, rfl, rfl⟩
  | countUp =>
    obtain ⟨w, rfl, rfl, rfl⟩ := hspec
    refine ⟨rfl, rfl, rfl, List.forall_mem_cons.mpr ⟨⟨rfl, rfl, rfl, rfl, rfl⟩, ?_⟩⟩
    exact List.forall_mem_singleton.mpr ⟨rfl, rfl, rfl, rfl, rfl⟩
  | markDraining w =>
    obtain ⟨rfl, -, rfl, rfl⟩ := hspec
    exact ⟨rfl, rfl, rfl, List.forall_mem_singleton.mpr ⟨rfl, rfl, rfl, rfl, rfl⟩⟩
  | claimCleanup w =>
    obtain ⟨rest, hrest, rfl, rfl⟩ := hspec
    rcases hrest with ⟨rfl, rfl⟩ | ⟨rfl, rfl⟩
    · refine ⟨rfl, rfl, rfl, List.forall_mem_cons.mpr ⟨⟨rfl, rfl, rfl, rfl, rfl⟩, ?_⟩⟩
      exact List.forall_mem_singleton.mpr ⟨rfl, rfl, rfl, rfl, rfl⟩
    · exact ⟨rfl, rfl, rfl, List.forall_mem_singleton.mpr ⟨rfl, rfl, rfl, rfl, rfl⟩⟩
  | pushWriter | retain | triggerRefill | closeChannel =>
    obtain ⟨rfl, rfl, rfl⟩ := hspec
    first
      | exact ⟨rfl, rfl, rfl, List.forall_mem_nil _⟩
      | exact ⟨rfl, rfl, rfl, List.forall_mem_singleton.mpr ⟨rfl, rfl, rfl, rfl, rfl⟩⟩
  | _ => cases hq

/-! ### One sender for each client -/

/-- Each client has one sender, and while the sender looks for a writer the client is not bound. -/
structure Senders (p : MePool) (M : Multiset Frame) : Prop where
  consistent : p.registry.Consistent
  once : ∀ c, M.countP (fun g => owner g = some c) ≤ 1
  handed_lt : ∀ g ∈ M, ∀ c, owner g = some c → c < p.registry.nextId
  unbound : ∀ g ∈ M, ∀ c, seeks g = some c → p.registry.writerForConn c = none

theorem senders_initial (start : ℕ) : Senders (initial start).shared (initial start).frames :=
  ⟨ConnRegistry.consistent_new start, fun _ => Multiset.countP_le_card _ _,
    by simp [Config.frames, initial, owner], by simp [Config.frames, initial, seeks]⟩

/-- A frame that goes on for the same client. -/
theorem countP_owner_le {g : Frame} {c : ℕ} (hf : owner f = some c) (hg : owner g = some c) (d : ℕ) :
    [g].countP (fun g => owner g = some d) ≤ [f].countP (fun g => owner g = some d) := by
  simp only [List.countP_singleton, hf, hg, le_refl]

/-- Steps that take on no client and bind none that another frame seeks a writer for. -/
theorem Senders.mono (hS : Senders p (f ::ₘ R)) {p' : MePool} {gs : List Frame}
    (hc : p'.registry.Consistent) (hn : p'.registry.nextId = p.registry.nextId)
    (hw : ∀ g ∈ R, ∀ c, seeks g = some c → p.registry.writerForConn c = none →
      p'.registry.writerForConn c = none)
    (hown : ∀ c, gs.countP (fun g => owner g = some c) ≤ [f].countP (fun g => owner g = some c))
    (hseek : ∀ g ∈ gs, ∀ c, seeks g = some c → p'.registry.writerForConn c = none) :
    Senders p' (gs + R) := by
  have hf : ∀ c, (∃ g ∈ gs, owner g = some c) → owner f = some c := by
    rintro c ⟨g, hg, hgc⟩
    have hpos : 0 < gs.countP (fun g => owner g = some c) :=
      List.countP_pos_iff.mpr ⟨g, hg, by simpa using hgc⟩
    have hfpos := List.countP_pos_iff.mp (lt_of_lt_of_le hpos (hown c))
    simpa using hfpos
  refine ⟨hc, fun c => ?_, fun g hg c hgc => ?_, fun g hg c hgc => ?_⟩
  · exact countP_add_le (hS.once c) (hown c)
  · rw [hn]
    rcases Multiset.mem_add.mp hg with hg | hg
    · exact hS.handed_lt f (Multiset.mem_cons_self _ _) c (hf c ⟨g, hg, hgc⟩)
    · exact hS.handed_lt g (Multiset.mem_cons_of_mem hg) c hgc
  · rcases Multiset.mem_add.mp hg with hg | hg
    · exact hseek g hg c hgc
    · exact hw g hg c hgc (hS.unbound g (Multiset.mem_cons_of_mem hg) c hgc)

theorem Senders.step (hS : Senders p (f ::ₘ R)) (hspec : OpSpec p f fs sp e) :
    Senders (e.effect p) ((fs ++ sp.flatten : List Frame) + R) := by
  by_cases hq : e.quiet = true
  · obtain ⟨hreg, -, -, hnew⟩ := quiet_spec hq hspec
    refine hS.mono (hreg ▸ hS.consistent) (by rw [hreg]) (fun _ _ c _ hc => hreg ▸ hc) (fun c => ?_)
      (fun g hg c hgc => ?_)
    · rw [List.countP_eq_zero.mpr fun g hg => by simp [(hnew g hg).1]]
      exact Nat.zero_le _
    · rw [(hnew g hg).2.1] at hgc
      cases hgc
  cases e with
  | skip =>
    refine hS.mono hS.consistent rfl (fun _ _ _ _ hc => hc) hspec.owner fun g hg c hgc => ?_
    rcases hspec.seeks g hg c hgc with hf | hnone
    · exact hS.unbound f (Multiset.mem_cons_self _ _) c hf
    · by_contra hne
      obtain ⟨w, hw⟩ := Option.ne_none_iff_exists'.mp hne
      have hsome := (hS.consistent.getWriter_isSome c).mpr ⟨w, hw⟩
      simp [hnone] at hsome
  | register c =>
    obtain ⟨rfl, rfl, rfl, rfl⟩ := hspec
    refine ⟨hS.consistent.register (), ?_, fun g hg c hgc => ?_, fun g hg c hgc => ?_⟩
    · refine countP_key_le_one (n := p.registry.nextId) hS.once (by simp [owner])
        (fun c hc => by simp [owner, Ne.symm hc]) fun g hg hgc => ?_
      exact Nat.lt_irrefl _ (hS.handed_lt g (Multiset.mem_cons_of_mem hg) _ hgc)
    · show c < p.registry.nextId + 1
      rcases Multiset.mem_add.mp hg with hg | hg
      · obtain rfl | rfl : g = .proxy ∨ g = .relay p.registry.nextId := by simpa using hg
        · cases hgc
        · obtain rfl := Option.some.inj hgc
          exact Nat.lt_succ_self _
      · exact Nat.lt_succ_of_lt (hS.handed_lt g (Multiset.mem_cons_of_mem hg) c hgc)
    · rcases Multiset.mem_add.mp hg with hg | hg
      · obtain rfl | rfl : g = .proxy ∨ g = .relay p.registry.nextId := by simpa using hg
        · cases hgc
        · cases hgc
      · exact hS.unbound g (Multiset.mem_cons_of_mem hg) c hgc
  | unregister d =>
    obtain ⟨rfl, rfl, rfl⟩ := hspec
    refine hS.mono (hS.consistent.unregister d) (by simp [PoolOp.effect]) (fun _ _ c _ hc => ?_)
      (by simp) (by simp)
    by_cases hcd : c = d <;> simp [PoolOp.effect, hcd, hc]
  | bindWriter d w m =>
    obtain ⟨call, rfl, rfl, rfl, rfl, rfl⟩ := hspec
    have hf := Multiset.mem_cons_self (Frame.send call (.bind w)) R
    have hfree := hS.unbound _ hf call.connId rfl
    refine hS.mono (hS.consistent.bindWriter hfree w w _) rfl (fun g hg c hgc hc => ?_)
      (by simp [owner]) (by simp [seeks])
    have hne : c ≠ call.connId := by
      rintro rfl
      exact notMem_of_countP_le_one (hS.once call.connId) rfl (owner_of_seeks hgc) hg
    exact (Function.update_of_ne hne ..).trans hc
  | writerLost w discard conns =>
    obtain ⟨rfl, -, rfl, rfl⟩ := hspec
    refine hS.mono (hS.consistent.writerLost w) rfl (fun _ _ c _ hc => ?_) ?_ ?_
    · simp [PoolOp.effect, ConnRegistry.writerLost, hc]
    · split <;> simp [owner]
    · split <;> simp [seeks]
  | enqueue c w =>
    rcases hspec with ⟨hf, rfl, rfl⟩ | ⟨call, rfl, hf, -, -, hown, rfl, rfl⟩
    · exact hS.mono hS.consistent rfl (fun _ _ _ _ hc => hc)
        (countP_owner_le (owner_of_resends hf) rfl) (by simp [seeks])
    · refine hS.mono hS.consistent rfl (fun _ _ _ _ hc => hc) (countP_owner_le hown rfl) ?_
      simpa [seeks, PoolOp.effect] using hS.unbound f (Multiset.mem_cons_self _ _) call.connId hf
  | routeClose c =>
    rcases hspec with ⟨cs, -, rfl, rfl, rfl⟩ | ⟨w, rfl, rfl, rfl⟩ <;>
      exact hS.mono hS.consistent rfl (fun _ _ _ _ hc => hc) (by simp [owner]) (by simp [seeks])
  | _ => exact absurd rfl hq

/-! ### Every client is served -/

/-- A client whose payload was enqueued, while it is registered, is bound, about to be bound or about
    to be closed. -/
structure Served (p : MePool) (h : List PoolOp) (M : Multiset Frame) : Prop where
  handed_lt : ∀ c w, .enqueue c w ∈ h → c < p.registry.nextId
  bound : ∀ c w, p.registry.writerForConn c = some w → ∃ v, .enqueue c v ∈ h
  sending : ∀ g ∈ M, ∀ c, resends g = some c ∨ binds g = some c → ∃ v, .enqueue c v ∈ h
  served : ∀ c v, .enqueue c v ∈ h → p.registry.map c ≠ none →
    (∃ w, p.registry.writerForConn c = some w) ∨ (∃ g ∈ M, binds g = some c) ∨
      ∃ g ∈ M, c ∈ closes g

theorem served_initial (start : ℕ) :
    Served (initial start).shared (initial start).history (initial start).frames := by
  refine ⟨?_, ?_, ?_, ?_⟩
  · intro c w hc
    cases hc
  · intro c w hc
    cases hc
  · simp [Config.frames, initial, resends, binds]
  · intro c v hc
    cases hc

/-- What a step has to do with the clients it binds, unbinds or enqueues for. -/
theorem Served.next (hV : Served p h (f ::ₘ R)) {p' : MePool} {gs : List Frame}
    (hn : p.registry.nextId ≤ p'.registry.nextId)
    (hmap : ∀ c < p.registry.nextId, p'.registry.map c ≠ none → p.registry.map c ≠ none)
    (hnew : ∀ c w, p'.registry.writerForConn c = some w →
      p.registry.writerForConn c = some w ∨ ∃ v, .enqueue c v ∈ h)
    (hkeep : ∀ c w, p.registry.writerForConn c = some w → p'.registry.map c ≠ none →
      (∃ v, p'.registry.writerForConn c = some v) ∨ ∃ g ∈ gs, c ∈ closes g)
    (hsend : ∀ g ∈ gs, ∀ c, resends g = some c ∨ binds g = some c →
      (∃ v, .enqueue c v ∈ h) ∨ ∃ v, e = .enqueue c v)
    (hbind : ∀ c, binds f = some c →
      (∃ v, p'.registry.writerForConn c = some v) ∨ ∃ g ∈ gs, binds g = some c)
    (hclose : ∀ c ∈ closes f, p'.registry.map c = none ∨ ∃ g ∈ gs, c ∈ closes g)
    (henq : ∀ c v, e = .enqueue c v → c < p.registry.nextId ∧
      ((∃ u, .enqueue c u ∈ h) ∨ ∃ g ∈ gs, binds g = some c)) :
    Served p' (h ++ [e]) (gs + R) := by
  have hold : ∀ {a : PoolOp}, a ∈ h → a ∈ h ++ [e] := List.mem_append_left _
  have hlt : ∀ c w, .enqueue c w ∈ h ++ [e] → c < p.registry.nextId := by
    intro c w hc
    rcases List.mem_append.mp hc with hc | hc
    · exact hV.handed_lt c w hc
    · exact (henq c w (List.mem_singleton.mp hc).symm).1
  refine ⟨fun c w hc => Nat.lt_of_lt_of_le (hlt c w hc) hn, fun c w hc => ?_, fun g hg c hgc => ?_,
    fun c v hc hm => ?_⟩
  · rcases hnew c w hc with hc | ⟨v, hv⟩
    · obtain ⟨v, hv⟩ := hV.bound c w hc
      exact ⟨v, hold hv⟩
    · exact ⟨v, hold hv⟩
  · rcases Multiset.mem_add.mp hg with hg | hg
    · rcases hsend g hg c hgc with ⟨v, hv⟩ | ⟨v, rfl⟩
      · exact ⟨v, hold hv⟩
      · exact ⟨v, by simp⟩
    · obtain ⟨v, hv⟩ := hV.sending g (Multiset.mem_cons_of_mem hg) c hgc
      exact ⟨v, hold hv⟩
  · -- the payload was enqueued before, or the step enqueues it and goes on to bind the client
    have hcase : (∃ u, .enqueue c u ∈ h) ∨ ∃ g ∈ gs, binds g = some c := by
      rcases List.mem_append.mp hc with hc | hc
      · exact .inl ⟨v, hc⟩
      · exact (henq c v (List.mem_singleton.mp hc).symm).2
    rcases hcase with ⟨u, hu⟩ | ⟨g, hg, hgc⟩
    · rcases hV.served c u hu (hmap c (hlt c v hc) hm) with ⟨w, hw⟩ | ⟨g, hg, hgc⟩ | ⟨g, hg, hgc⟩
      · rcases hkeep c w hw hm with hw | ⟨g, hg, hgc⟩
        · exact .inl hw
        · exact .inr (.inr ⟨g, Multiset.mem_add.mpr (.inl hg), hgc⟩)
      · rcases Multiset.mem_cons.mp hg with rfl | hg
        · rcases hbind c hgc with hw | ⟨g', hg', hgc'⟩
          · exact .inl hw
          · exact .inr (.inl ⟨g', Multiset.mem_add.mpr (.inl hg'), hgc'⟩)
        · exact .inr (.inl ⟨g, Multiset.mem_add.mpr (.inr hg), hgc⟩)
      · rcases Multiset.mem_cons.mp hg with rfl | hg
        · obtain ⟨g', hg', hgc'⟩ := (hclose c hgc).resolve_left hm
          exact .inr (.inr ⟨g', Multiset.mem_add.mpr (.inl hg'), hgc'⟩)
        · exact .inr (.inr ⟨g, Multiset.mem_add.mpr (.inr hg), hgc⟩)
    · exact .inr (.inl ⟨g, Multiset.mem_add.mpr (.inl hg), hgc⟩)

/-- Steps that enqueue nothing and leave the registry alone. -/
theorem Served.mono (hV : Served p h (f ::ₘ R)) {p' : MePool} {gs : List Frame}
    (hreg : p'.registry = p.registry) (he : ∀ c w, e ≠ .enqueue c w)
    (hsend : ∀ g ∈ gs, ∀ c, resends g = some c ∨ binds g = some c → ∃ v, .enqueue c v ∈ h)
    (hbind : binds f = none) (hclose : ∀ c, c ∈ closes f → ∃ g ∈ gs, c ∈ closes g) :
    Served p' (h ++ [e]) (gs + R) :=
  hV.next (by rw [hreg]) (fun c _ hm => hreg ▸ hm) (fun c w hc => .inl (hreg ▸ hc))
    (fun c w hc _ => .inl ⟨w, hreg ▸ hc⟩) (fun g hg c hgc => .inl (hsend g hg c hgc))
    (by simp [hbind]) (fun c hc => .inr (hclose c hc)) (fun c v hev => absurd hev (he c v))

theorem binds_none_of_resends {g : Frame} {c : ℕ} (hg : resends g = some c) : binds g = none := by
  cases g with
  | send call pc => cases pc <;> simp_all [resends, binds]
  | _ => rfl

theorem Served.step (hS : Senders p (f ::ₘ R)) (hV : Served p h (f ::ₘ R))
    (hspec : OpSpec p f fs sp e) (hG : ∀ w conns, e = .writerLost w true conns → conns = []) :
    Served (e.effect p) (h ++ [e]) ((fs ++ sp.flatten : List Frame) + R) := by
  by_cases hq : e.quiet = true
  · obtain ⟨hreg, hb, hcl, hnew⟩ := quiet_spec hq hspec
    refine hV.mono hreg (fun c w he => by rw [he] at hq; cases hq) (fun g hg c hgc => ?_) hb
      (by simp [hcl])
    obtain ⟨-, -, hr, hb, -⟩ := hnew g hg
    simp [hr, hb] at hgc
  cases e with
  | skip =>
    refine hV.mono rfl (by simp) (fun g hg c hgc => ?_) hspec.binds.1 (by simp [hspec.closes])
    rw [hspec.binds.2 g hg] at hgc
    rcases hspec.resends g hg c (by simpa using hgc) with hf | hsome
    · exact hV.sending f (Multiset.mem_cons_self _ _) c (.inl hf)
    · obtain ⟨w, hw⟩ := (hS.consistent.getWriter_isSome c).mp hsome
      exact hV.bound c w hw
  | routeClose c =>
    rcases hspec with ⟨cs, -, rfl, rfl, rfl⟩ | ⟨w, rfl, rfl, rfl⟩
    · refine hV.mono rfl (by simp) (by simp [resends, binds]) rfl fun d hd => ?_
      by_cases hdc : d = c
      · exact ⟨.unregister c, by simp, by simp [closes, hdc]⟩
      · exact ⟨.closeClients (cs.erase c), by simp, (List.mem_erase_of_ne hdc).mpr hd⟩
    · exact hV.mono rfl (by simp) (by simp [resends, binds]) rfl (by simp [closes])
  | register c =>
    obtain ⟨rfl, rfl, rfl, rfl⟩ := hspec
    refine hV.next (Nat.le_succ _) (fun c hlt hm => ?_) (fun _ _ hc => .inl hc)
      (fun c w hc _ => .inl ⟨w, hc⟩) (by simp [resends, binds]) (by simp [binds]) (by simp [closes])
      (by simp)
    -- the new client is not among those that have sent something
    rwa [show ((PoolOp.register p.registry.nextId).effect p).registry.map c = p.registry.map c from
      Function.update_of_ne (Nat.ne_of_lt hlt) ..] at hm
  | unregister d =>
    obtain ⟨rfl, rfl, rfl⟩ := hspec
    have hother : ∀ {c}, ((PoolOp.unregister d).effect p).registry.map c ≠ none → c ≠ d := by
      rintro c hm rfl
      simp [PoolOp.effect] at hm
    refine hV.next (by simp [PoolOp.effect]) (fun c _ hm => ?_) (fun c w hc => .inl ?_)
      (fun c w hc hm => .inl ⟨w, ?_⟩) (by simp) (by simp [binds]) (by simp [closes, PoolOp.effect])
      (by simp)
    · simpa [PoolOp.effect, hother hm] using hm
    · by_cases hcd : c = d
      · simp [PoolOp.effect, hcd] at hc
      · simpa [PoolOp.effect, hcd] using hc
    · simpa [PoolOp.effect, hother hm] using hc
  | bindWriter d w m =>
    obtain ⟨call, rfl, rfl, rfl, rfl, rfl⟩ := hspec
    have hsent := hV.sending _ (Multiset.mem_cons_self _ _) call.connId (.inr rfl)
    refine hV.next le_rfl (fun _ _ hm => hm) (fun c v hc => ?_) (fun c v hc _ => .inl ?_)
      (by simp [resends, binds]) (fun c hc => .inl ⟨w, ?_⟩) (by simp [closes]) (by simp)
    · by_cases hcd : c = call.connId
      · exact .inr (hcd ▸ hsent)
      · exact .inl (by simpa [PoolOp.effect, hcd] using hc)
    · by_cases hcd : c = call.connId
      · exact ⟨w, by simp [PoolOp.effect, hcd]⟩
      · exact ⟨v, by simpa [PoolOp.effect, hcd] using hc⟩
    · obtain rfl := Option.some.inj hc
      simp [PoolOp.effect]
  | writerLost w discard conns =>
    obtain ⟨rfl, hconns, rfl, rfl⟩ := hspec
    have hlost := hS.consistent.writerForConn_writerLost w
    refine hV.next le_rfl (fun _ _ hm => hm) (fun c v hc => .inl ((hlost c v).mp hc).2)
      (fun c v hc _ => ?_) (by split <;> simp [resends, binds]) (by simp [binds]) (by simp [closes])
      (by simp)
    by_cases hvw : v = w
    · -- bound to the lost writer: it is among the conns returned, which are not discarded
      subst hvw
      have hin : c ∈ conns := hconns ▸ (hS.consistent.mem_lostConns v c).mpr hc
      cases discard with
      | false => exact .inr ⟨.closeClients conns, by simp, hin⟩
      | true =>
        rw [hG v conns rfl] at hin
        cases hin
    · exact .inl ⟨v, (hlost c v).mpr ⟨hvw, hc⟩⟩
  | enqueue c w =>
    rcases hspec with ⟨hf, rfl, rfl⟩ | ⟨call, rfl, hf, -, hbind, hown, rfl, rfl⟩
    · -- to the writer the client is bound to already
      have hown := owner_of_resends hf
      refine hV.next le_rfl (fun _ _ hm => hm) (fun _ _ hc => .inl hc) (fun c w hc _ => .inl ⟨w, hc⟩)
        (by simp [resends, binds]) (by simp [binds_none_of_resends hf])
        (by simp [(owner_spec hown).2.1]) fun d v he => ?_
      obtain ⟨rfl, rfl⟩ : c = d ∧ w = v := by simpa using he
      exact ⟨hS.handed_lt f (Multiset.mem_cons_self _ _) c hown,
        .inl (hV.sending f (Multiset.mem_cons_self _ _) c (.inl hf))⟩
    · refine hV.next le_rfl (fun _ _ hm => hm) (fun _ _ hc => .inl hc) (fun c w hc _ => .inl ⟨w, hc⟩)
        (by simp [resends, binds]) (by simp [hbind]) (by simp [(owner_spec hown).2.1])
        fun d v he => ?_
      obtain ⟨rfl, rfl⟩ : call.connId = d ∧ w = v := by simpa using he
      exact ⟨hS.handed_lt f (Multiset.mem_cons_self _ _) _ hown,
        .inr ⟨.send call (.bind w), by simp, rfl⟩⟩
  | _ => exact absurd rfl hq

/-! ### Where the bound clients are -/

/-- `writer_lost` has been called for the writer. -/
def purged (h : List PoolOp) (w : ℕ) : Bool :=
  h.any fun
    | .writerLost v _ _ => v = w
    | _ => false

/-- The writer has been on the list. -/
def Pushed (h : List PoolOp) (w : ℕ) : Prop := ∃ v, .pushWriter v ∈ h ∧ v.id = w

/-- A writer that has left the list was purged or is going to be; clients are bound to writers that
    have not been purged. -/
structure Placed (p : MePool) (h : List PoolOp) (M : Multiset Frame) : Prop where
  listed : ∀ w ∈ p.writerIds, Pushed h w
  tried : ∀ g ∈ M, ∀ w ∈ tries g, Pushed h w
  bound : ∀ c w, p.registry.writerForConn c = some w → Pushed h w ∧ purged h w = false
  kept : ∀ w, Pushed h w → w ∈ p.writerIds ∨ purged h w = true ∨ ∃ g ∈ M, purges g = some w
  retaining : ∀ w, .readerRetain w ∈ M → p.cleanupDone w = true
  cleaned : ∀ w, p.cleanupDone w = true → purged h w = true ∨ ∃ g ∈ M, purges g = some w

theorem placed_initial (start : ℕ) :
    Placed (initial start).shared (initial start).history (initial start).frames := by
  refine ⟨?_, ?_, ?_, ?_, ?_, ?_⟩
  · intro w hw
    cases hw
  · simp [Config.frames, initial, tries]
  · intro c w hc
    cases hc
  · rintro w ⟨v, hv, -⟩
    cases hv
  · simp [Config.frames, initial]
  · intro w hw
    cases hw

theorem purged_append {w : ℕ} : purged (h ++ [e]) w = (purged h w || purged [e] w) :=
  List.any_append

theorem purged_other {w : ℕ} (he : ∀ v d cs, e ≠ .writerLost v d cs) : purged [e] w = false := by
  cases e with
  | writerLost v d cs => exact absurd rfl (he v d cs)
  | _ => rfl

theorem Pushed.append {w : ℕ} (hw : Pushed h w) : Pushed (h ++ [e]) w := by
  obtain ⟨v, hv, hid⟩ := hw
  exact ⟨v, List.mem_append_left _ hv, hid⟩

/-- Steps that push no writer: one that leaves the list is purged or going to be, and a purge is done
    or handed on. -/
theorem Placed.next (hP : Placed p h (f ::ₘ R)) {p' : MePool} {gs : List Frame}
    (he : ∀ v, e ≠ .pushWriter v) (hids : ∀ w ∈ p'.writerIds, w ∈ p.writerIds)
    (hleft : ∀ w ∈ p.writerIds, w ∈ p'.writerIds ∨ purged h w = true ∨
      ∃ g ∈ (gs : Multiset Frame) + R, purges g = some w)
    (hb : ∀ c w, p'.registry.writerForConn c = some w →
      Pushed h w ∧ purged h w = false ∧ purged [e] w = false)
    (htry : ∀ g ∈ gs, ∀ w ∈ tries g, w ∈ tries f ∨ w ∈ p.writerIds)
    (hpurge : ∀ w, purges f = some w → purged [e] w = true ∨ ∃ g ∈ gs, purges g = some w)
    (hdone : ∀ w, p.cleanupDone w = true → p'.cleanupDone w = true)
    (hclaim : ∀ w, p'.cleanupDone w = true → p.cleanupDone w = true ∨ ∃ g ∈ gs, purges g = some w)
    (hretain : ∀ w, .readerRetain w ∈ gs → p'.cleanupDone w = true) :
    Placed p' (h ++ [e]) (gs + R) := by
  have hpushed : ∀ w, Pushed (h ++ [e]) w ↔ Pushed h w := by
    refine fun w => ⟨?_, Pushed.append⟩
    rintro ⟨v, hv, hid⟩
    rcases List.mem_append.mp hv with hv | hv
    · exact ⟨v, hv, hid⟩
    · exact absurd (List.mem_singleton.mp hv).symm (he v)
  have hmore : ∀ w, purged h w = true → purged (h ++ [e]) w = true := fun w hw => by
    rw [purged_append, hw, Bool.true_or]
  have hgoing : ∀ w, (∃ g ∈ f ::ₘ R, purges g = some w) →
      purged (h ++ [e]) w = true ∨ ∃ g ∈ (gs : Multiset Frame) + R, purges g = some w := by
    rintro w ⟨g, hg, hgw⟩
    rcases Multiset.mem_cons.mp hg with rfl | hg
    · rcases hpurge w hgw with hp | ⟨g', hg', hgw'⟩
      · exact .inl (by rw [purged_append, hp, Bool.or_true])
      · exact .inr ⟨g', Multiset.mem_add.mpr (.inl hg'), hgw'⟩
    · exact .inr ⟨g, Multiset.mem_add.mpr (.inr hg), hgw⟩
  refine ⟨fun w hw => ?_, fun g hg w hgw => ?_, fun c w hc => ?_, fun w hw => ?_, fun w hg => ?_,
    fun w hw => ?_⟩
  · exact (hpushed w).mpr (hP.listed w (hids w hw))
  · rw [hpushed]
    rcases Multiset.mem_add.mp hg with hg | hg
    · rcases htry g hg w hgw with hf | hl
      · exact hP.tried f (Multiset.mem_cons_self _ _) w hf
      · exact hP.listed w hl
    · exact hP.tried g (Multiset.mem_cons_of_mem hg) w hgw
  · obtain ⟨hpu, hno, hno'⟩ := hb c w hc
    exact ⟨hpu.append, by rw [purged_append, hno, hno', Bool.or_false]⟩
  · rcases hP.kept w ((hpushed w).mp hw) with hl | hl | hl
    · exact (hleft w hl).imp_right (Or.imp_left (hmore w))
    · exact .inr (.inl (hmore w hl))
    · exact .inr (hgoing w hl)
  · rcases Multiset.mem_add.mp hg with hg | hg
    · exact hretain w hg
    · exact hdone w (hP.retaining w (Multiset.mem_cons_of_mem hg))
  · rcases hclaim w hw with hl | ⟨g, hg, hgw⟩
    · rcases hP.cleaned w hl with hl | hl
      · exact .inl (hmore w hl)
      · exact hgoing w hl
    · exact .inr ⟨g, Multiset.mem_add.mpr (.inl hg), hgw⟩

/-- Where no writer is purged, the bound clients stay where they are. -/
theorem Placed.bound_next {M : Multiset Frame} (hP : Placed p h M)
    (he : ∀ w d cs, e ≠ .writerLost w d cs) {c w : ℕ} (hc : p.registry.writerForConn c = some w) :
    Pushed h w ∧ purged h w = false ∧ purged [e] w = false := by
  obtain ⟨hpu, hno⟩ := hP.bound c w hc
  exact ⟨hpu, hno, purged_other he⟩

/-- Steps that leave the list and the cleanup flags alone and purge nothing. -/
theorem Placed.mono (hP : Placed p h (f ::ₘ R)) {p' : MePool} {gs : List Frame}
    (hw : p'.writers = p.writers) (hd : p'.cleanupDone = p.cleanupDone)
    (hb : ∀ c w, p'.registry.writerForConn c = some w → Pushed h w ∧ purged h w = false)
    (he : (∀ v, e ≠ .pushWriter v) ∧ ∀ w d cs, e ≠ .writerLost w d cs)
    (htry : ∀ g ∈ gs, ∀ w ∈ tries g, w ∈ tries f ∨ w ∈ p.writerIds)
    (hpurge : ∀ w, purges f = some w → ∃ g ∈ gs, purges g = some w)
    (hretain : ∀ w, .readerRetain w ∈ gs → p.cleanupDone w = true) :
    Placed p' (h ++ [e]) (gs + R) := by
  have hids : p'.writerIds = p.writerIds := by rw [MePool.writerIds, hw, MePool.writerIds]
  refine hP.next he.1 (fun w hw => hids ▸ hw) (fun w hw => .inl (hids ▸ hw)) (fun c w hc => ?_) htry
    (fun w hf => .inr (hpurge w hf)) (fun w hw => hd ▸ hw) (fun w hw => .inl (hd ▸ hw))
    (fun w hg => hd ▸ hretain w hg)
  obtain ⟨hpu, hno⟩ := hb c w hc
  exact ⟨hpu, hno, purged_other he.2⟩

theorem Placed.pushWriter {v : MeWriter} (hP : Placed p h (.connectPush v ::ₘ R)) :
    Placed ((PoolOp.pushWriter v).effect p) (h ++ [.pushWriter v])
      (([.connectCount v.id] : List Frame) + R) := by
  have hpushed : ∀ w, Pushed (h ++ [.pushWriter v]) w ↔ Pushed h w ∨ w = v.id := by
    intro w
    simp only [Pushed, List.mem_append, List.mem_singleton, PoolOp.pushWriter.injEq]
    constructor
    · rintro ⟨u, hu | rfl, rfl⟩
      · exact .inl ⟨u, hu, rfl⟩
      · exact .inr rfl
    · rintro (⟨u, hu, rfl⟩ | rfl)
      · exact ⟨u, .inl hu, rfl⟩
      · exact ⟨v, .inr rfl, rfl⟩
  have hpurged : ∀ w, purged (h ++ [.pushWriter v]) w = purged h w := fun w => by
    rw [purged_append]
    exact Bool.or_false _
  have hids : ((PoolOp.pushWriter v).effect p).writerIds = p.writerIds ++ [v.id] := by
    simp [PoolOp.effect, MePool.writerIds]
  have hR : ∀ {g : Frame}, g ∈ (([.connectCount v.id] : List Frame) : Multiset Frame) + R →
      g = .connectCount v.id ∨ g ∈ R := by simp
  refine ⟨fun w hw => ?_, fun g hg w hgw => ?_, fun c w hc => ?_, fun w hw => ?_, fun w hg => ?_,
    fun w hw => ?_⟩
  · rw [hids, List.mem_append, List.mem_singleton] at hw
    exact (hpushed w).mpr (hw.imp_left (hP.listed w))
  · rcases hR hg with rfl | hg
    · cases hgw
    · exact (hP.tried g (Multiset.mem_cons_of_mem hg) w hgw).append
  · obtain ⟨hpu, hno⟩ := hP.bound c w hc
    exact ⟨hpu.append, (hpurged w).trans hno⟩
  · rw [hids, List.mem_append, List.mem_singleton, hpurged]
    rcases (hpushed w).mp hw with hw | rfl
    · rcases hP.kept w hw with hl | hl | hl
      · exact .inl (.inl hl)
      · exact .inr (.inl hl)
      · exact .inr (.inr (exists_mem_add hl (by simp [purges])))
    · exact .inl (.inr rfl)
  · rcases hR hg with hg | hg
    · cases hg
    · exact hP.retaining w (Multiset.mem_cons_of_mem hg)
  · rw [hpurged]
    exact (hP.cleaned w hw).imp_right fun hl => exists_mem_add hl (by simp [purges])

theorem Placed.step (hI : Pushes p h (f ::ₘ R)) (hS : Senders p (f ::ₘ R)) (hP : Placed p h (f ::ₘ R))
    (hspec : OpSpec p f fs sp e) (hG : ∀ c w m, e = .bindWriter c w m → purged h w = false) :
    Placed (e.effect p) (h ++ [e]) ((fs ++ sp.flatten : List Frame) + R) := by
  cases e with
  | skip =>
    exact hP.mono rfl rfl hP.bound (by simp) hspec.tries hspec.purges hspec.retains
  | register c =>
    obtain ⟨-, rfl, rfl, rfl⟩ := hspec
    exact hP.mono rfl rfl hP.bound (by simp) (by simp [tries]) (by simp [purges]) (by simp)
  | unregister d =>
    obtain ⟨rfl, rfl, rfl⟩ := hspec
    refine hP.mono rfl rfl (fun c w hc => ?_) (by simp) (by simp) (by simp [purges]) (by simp)
    by_cases hcd : c = d
    · simp [PoolOp.effect, hcd] at hc
    · exact hP.bound c w (by simpa [PoolOp.effect, hcd] using hc)
  | bindWriter d w m =>
    have hno := hG d w m rfl
    obtain ⟨call, rfl, rfl, rfl, rfl, rfl⟩ := hspec
    refine hP.mono rfl rfl (fun c v hc => ?_) (by simp) (by simp [tries]) (by simp [purges]) (by simp)
    by_cases hcd : c = call.connId
    · obtain rfl : w = v := by simpa [PoolOp.effect, hcd] using hc
      exact ⟨hP.tried _ (Multiset.mem_cons_self _ _) w (by simp [tries]), hno⟩
    · exact hP.bound c v (by simpa [PoolOp.effect, hcd] using hc)
  | writerLost w discard conns =>
    obtain ⟨rfl, -, rfl, rfl⟩ := hspec
    refine hP.next (by simp) (fun _ hw => hw) (fun _ hw => .inl hw) (fun c v hc => ?_)
      (by split <;> simp [tries]) (fun v hv => .inl ?_) (fun _ hw => hw) (fun _ hw => .inl hw)
      (by split <;> simp)
    · obtain ⟨hne, hc⟩ := (hS.consistent.writerForConn_writerLost w c v).mp hc
      obtain ⟨hpu, hno⟩ := hP.bound c v hc
      exact ⟨hpu, hno, by simpa [purged] using Ne.symm hne⟩
    · obtain rfl := Option.some.inj hv
      simp [purged]
  | enqueue c w =>
    rcases hspec with ⟨hf, rfl, rfl⟩ | ⟨call, rfl, hf, htry, -, -, rfl, rfl⟩
    · refine hP.mono rfl rfl hP.bound (by simp) (by simp [tries]) (fun v hv => ?_) (by simp)
      cases (owner_spec (owner_of_resends hf)).1.symm.trans hv
    · refine hP.mono rfl rfl hP.bound (by simp) (fun g hg v hv => .inl ?_) (fun v hv => ?_) (by simp)
      · obtain rfl : g = .send call (.bind w) := by simpa using hg
        obtain rfl : v = w := by simpa [tries] using hv
        exact htry
      · cases (owner_spec (owner_of_seeks hf)).1.symm.trans hv
  | routeClose c =>
    rcases hspec with ⟨cs, -, rfl, rfl, rfl⟩ | ⟨w, rfl, rfl, rfl⟩ <;>
      exact hP.mono rfl rfl hP.bound (by simp) (by simp [tries]) (by simp [purges]) (by simp)
  | pushWriter v =>
    obtain ⟨rfl, rfl, rfl⟩ := hspec
    exact hP.pushWriter
  | removeWriter v =>
    obtain ⟨discard, hv, rfl, rfl, rfl⟩ := hspec
    have hlast : ∃ g ∈ Frame.removeClose v.id :: (if p.draining v.id then [] else [.removeRefill v]) ++
        [.removeLost v.id discard] ++ [].flatten, purges g = some v.id :=
      ⟨.removeLost v.id discard, by simp, rfl⟩
    refine hP.next (by simp) (fun w hw => ?_) (fun w hw => ?_)
      (fun _ _ hc => hP.bound_next (by simp) hc) (by split <;> simp [tries]) (fun w hw => .inr ?_)
      (fun _ hw => hw) (fun _ hw => .inl hw) (by split <;> simp)
    · exact (List.Sublist.map MeWriter.id List.eraseP_sublist).subset hw
    · by_cases hwv : w = v.id
      · obtain ⟨g, hg, hgw⟩ := hlast
        exact .inr (.inr ⟨g, Multiset.mem_add.mpr (.inl hg), hwv ▸ hgw⟩)
      · obtain ⟨u, hu, rfl⟩ := List.mem_map.mp hw
        refine .inl (List.mem_map.mpr ⟨u, (mem_eraseP_id hI hv u).mpr ⟨?_, hu⟩, rfl⟩)
        exact fun huv => hwv (congrArg _ huv)
    · obtain rfl := Option.some.inj hw
      exact hlast
  | retain w =>
    obtain ⟨rfl, rfl, rfl⟩ := hspec
    refine hP.next (by simp) (fun v hv => ?_) (fun v hv => ?_)
      (fun _ _ hc => hP.bound_next (by simp) hc) (by simp) (by simp [purges]) (fun _ hw => hw)
      (fun _ hw => .inl hw) (by simp)
    · exact (List.Sublist.map MeWriter.id List.filter_sublist).subset hv
    · by_cases hvw : v = w
      · -- the cleanup of this writer was claimed before
        subst hvw
        have hdone := hP.retaining v (Multiset.mem_cons_self _ _)
        exact .inr ((hP.cleaned v hdone).imp_right fun hl => exists_mem_add hl (by simp [purges]))
      · obtain ⟨u, hu, rfl⟩ := List.mem_map.mp hv
        exact .inl (List.mem_map.mpr ⟨u, List.mem_filter.mpr ⟨hu, by simpa using hvw⟩, rfl⟩)
  | claimCleanup w =>
    obtain ⟨rest, hrest, rfl, rfl⟩ := hspec
    refine hP.next (by simp) (fun _ hw => hw) (fun _ hw => .inl hw)
      (fun _ _ hc => hP.bound_next (by simp) hc) (fun g hg v hv => ?_) (fun v hv => ?_)
      (fun v hv => ?_) (fun v hv => ?_) (fun v hv => ?_)
    · rcases hrest with ⟨rfl, rfl⟩ | ⟨rfl, rfl⟩ <;> simp at hg
      · rcases hg with rfl | rfl <;> simp [tries] at hv
      · simp [hg, tries] at hv
    · rcases hrest with ⟨rfl, rfl⟩ | ⟨rfl, rfl⟩ <;> simp [purges] at hv
    · by_cases hvw : v = w <;> simp [PoolOp.effect, hvw, hv]
    · by_cases hvw : v = w
      · exact .inr ⟨.removeList w false, by simp, by simp [purges, hvw]⟩
      · exact .inl (by simpa [PoolOp.effect, hvw] using hv)
    · rcases hrest with ⟨rfl, rfl⟩ | ⟨rfl, rfl⟩
      · obtain rfl : v = w := by simpa using hv
        simp [PoolOp.effect]
      · simp at hv
  | allocId =>
    obtain ⟨addr, rfl, rfl, rfl⟩ := hspec
    exact hP.mono rfl rfl hP.bound (by simp) (by simp [tries]) (by simp [purges]) (by simp)
  | countUp =>
    obtain ⟨w, rfl, rfl, rfl⟩ := hspec
    exact hP.mono rfl rfl hP.bound (by simp) (by simp [tries]) (by simp [purges]) (by simp)
  | markDraining w =>
    obtain ⟨rfl, -, rfl, rfl⟩ := hspec
    exact hP.mono rfl rfl hP.bound (by simp) (by simp [tries]) (by simp [purges]) (by simp)
  | triggerRefill | closeChannel =>
    obtain ⟨rfl, rfl, rfl⟩ := hspec
    exact hP.mono rfl rfl hP.bound (by simp) (by simp) (by simp [purges]) (by simp)

/-! ### The clients of a lost writer -/

/-- The clients that `writer_lost` returned are told `Close` and unregistered, or going to be; a client
    that was bound still is, or was returned, or has gone. -/
structure Told (p : MePool) (h : List PoolOp) (M : Multiset Frame) : Prop where
  told : ∀ w discard conns c, .writerLost w discard conns ∈ h → c ∈ conns →
    c < p.registry.nextId ∧ ((∃ cs, c ∈ cs ∧ .closeClients cs ∈ M) ∨
      .routeClose c ∈ h ∧ (.unregister c ∈ M ∨ p.registry.map c = none))
  left : ∀ c w m, .bindWriter c w m ∈ h → c < p.registry.nextId ∧
    (p.registry.writerForConn c = some w ∨ (∃ discard conns, .writerLost w discard conns ∈ h ∧
      c ∈ conns) ∨ p.registry.map c = none)

theorem told_initial (start : ℕ) :
    Told (initial start).shared (initial start).history (initial start).frames := by
  constructor
  · intro w discard conns c hc
    cases hc
  · intro c w m hc
    cases hc

/-- What a step has to do with the clients it takes charge of, unbinds or binds. -/
theorem Told.next (hT : Told p h (f ::ₘ R)) {p' : MePool} {gs : List Frame}
    (hn : p.registry.nextId ≤ p'.registry.nextId)
    (hmap : ∀ c < p.registry.nextId, p.registry.map c = none → p'.registry.map c = none)
    (hkeep : ∀ c w, p.registry.writerForConn c = some w → p'.registry.writerForConn c = some w ∨
      (∃ discard conns, e = .writerLost w discard conns ∧ c ∈ conns) ∨ p'.registry.map c = none)
    (hclose : ∀ cs, f = .closeClients cs → ∀ c ∈ cs, (∃ cs', c ∈ cs' ∧ .closeClients cs' ∈ gs) ∨
      e = .routeClose c ∧ .unregister c ∈ gs)
    (hgone : ∀ c, f = .unregister c → p'.registry.map c = none)
    (hlost : ∀ w discard conns, e = .writerLost w discard conns → ∀ c ∈ conns,
      c < p.registry.nextId ∧ .closeClients conns ∈ gs)
    (hbind : ∀ c w m, e = .bindWriter c w m → c < p.registry.nextId ∧
      p'.registry.writerForConn c = some w) :
    Told p' (h ++ [e]) (gs + R) := by
  have hold : ∀ {a : PoolOp}, a ∈ h → a ∈ h ++ [e] := List.mem_append_left _
  constructor
  · intro w discard conns c hw hc
    rcases List.mem_append.mp hw with hw | hw
    · obtain ⟨hlt, hwait⟩ := hT.told w discard conns c hw hc
      refine ⟨Nat.lt_of_lt_of_le hlt hn, ?_⟩
      rcases hwait with ⟨cs, hcs, hM⟩ | ⟨hclosed, hM | hM⟩
      · rcases Multiset.mem_cons.mp hM with hf | hR
        · rcases hclose cs hf.symm c hcs with ⟨cs', hcs', hgs⟩ | ⟨rfl, hgs⟩
          · exact .inl ⟨cs', hcs', Multiset.mem_add.mpr (.inl hgs)⟩
          · exact .inr ⟨by simp, .inl (Multiset.mem_add.mpr (.inl hgs))⟩
        · exact .inl ⟨cs, hcs, Multiset.mem_add.mpr (.inr hR)⟩
      · rcases Multiset.mem_cons.mp hM with hf | hR
        · exact .inr ⟨hold hclosed, .inr (hgone c hf.symm)⟩
        · exact .inr ⟨hold hclosed, .inl (Multiset.mem_add.mpr (.inr hR))⟩
      · exact .inr ⟨hold hclosed, .inr (hmap c hlt hM)⟩
    · obtain ⟨hlt, hgs⟩ := hlost w discard conns (List.mem_singleton.mp hw).symm c hc
      exact ⟨Nat.lt_of_lt_of_le hlt hn, .inl ⟨conns, hc, Multiset.mem_add.mpr (.inl hgs)⟩⟩
  · intro c w m hb
    rcases List.mem_append.mp hb with hb | hb
    · obtain ⟨hlt, hwhere⟩ := hT.left c w m hb
      refine ⟨Nat.lt_of_lt_of_le hlt hn, ?_⟩
      rcases hwhere with hw | ⟨discard, conns, hl, hc⟩ | hm
      · rcases hkeep c w hw with hw | ⟨discard, conns, rfl, hc⟩ | hm
        · exact .inl hw
        · exact .inr (.inl ⟨discard, conns, by simp, hc⟩)
        · exact .inr (.inr hm)
      · exact .inr (.inl ⟨discard, conns, hold hl, hc⟩)
      · exact .inr (.inr (hmap c hlt hm))
    · obtain ⟨hlt, hw⟩ := hbind c w m (List.mem_singleton.mp hb).symm
      exact ⟨Nat.lt_of_lt_of_le hlt hn, .inl hw⟩

/-- Steps that leave the registry and the clients to close alone. -/
theorem Told.mono (hT : Told p h (f ::ₘ R)) {p' : MePool} {gs : List Frame}
    (hreg : p'.registry = p.registry) (hcl : closes f = [])
    (he : (∀ w d cs, e ≠ .writerLost w d cs) ∧ ∀ c w m, e ≠ .bindWriter c w m) :
    Told p' (h ++ [e]) (gs + R) := by
  refine hT.next (by rw [hreg]) (fun c _ hm => hreg ▸ hm) (fun c w hw => .inl (hreg ▸ hw)) ?_ ?_
    (fun w d cs hl => absurd hl (he.1 w d cs)) (fun c w m hb => absurd hb (he.2 c w m))
  · rintro cs rfl c hc
    rw [show cs = [] from hcl] at hc
    cases hc
  · rintro c rfl
    cases hcl

theorem Told.step (hS : Senders p (f ::ₘ R)) (hV : Served p h (f ::ₘ R)) (hT : Told p h (f ::ₘ R))
    (hspec : OpSpec p f fs sp e) (hG : ∀ w conns, e = .writerLost w true conns → conns = []) :
    Told (e.effect p) (h ++ [e]) ((fs ++ sp.flatten : List Frame) + R) := by
  by_cases hq : e.quiet = true
  · obtain ⟨hreg, -, hcl, -⟩ := quiet_spec hq hspec
    refine hT.mono hreg hcl ⟨fun w d cs he => ?_, fun c w m he => ?_⟩ <;> simp [he, PoolOp.quiet] at hq
  cases e with
  | skip => exact hT.mono rfl hspec.closes (by simp)
  | enqueue c w =>
    have hown : owner f = some c := by
      rcases hspec with ⟨hf, -⟩ | ⟨call, -, -, -, -, hown, -⟩
      · exact owner_of_resends hf
      · exact hown
    exact hT.mono rfl ((owner_spec hown).2.1) (by simp)
  | register c =>
    obtain ⟨rfl, rfl, rfl, rfl⟩ := hspec
    refine hT.next (Nat.le_succ _) (fun c hlt hm => ?_) (fun _ _ hw => .inl hw) (by simp) (by simp)
      (by simp) (by simp)
    exact (Function.update_of_ne (Nat.ne_of_lt hlt) ..).trans hm
  | unregister d =>
    obtain ⟨rfl, rfl, rfl⟩ := hspec
    refine hT.next (by simp [PoolOp.effect]) (fun c _ hm => ?_) (fun c w hw => ?_) (by simp) ?_ (by simp)
      (by simp)
    · by_cases hcd : c = d <;> simp [PoolOp.effect, hcd, hm]
    · by_cases hcd : c = d
      · exact .inr (.inr (by simp [PoolOp.effect, hcd]))
      · exact .inl (by simpa [PoolOp.effect, hcd] using hw)
    · simp [PoolOp.effect]
  | bindWriter d w m =>
    obtain ⟨call, rfl, rfl, rfl, rfl, rfl⟩ := hspec
    have hf := Multiset.mem_cons_self (Frame.send call (.bind w)) R
    have hfree := hS.unbound _ hf call.connId rfl
    have hlt := hS.handed_lt _ hf call.connId rfl
    refine hT.next le_rfl (fun _ _ hm => hm) (fun c v hv => .inl ?_) (by simp) (by simp) (by simp) ?_
    · have hcd : c ≠ call.connId := by
        rintro rfl
        simp [hfree] at hv
      simpa [PoolOp.effect, hcd] using hv
    · rintro c v m' he
      obtain ⟨rfl, rfl, -⟩ : call.connId = c ∧ w = v ∧ call.connMeta = m' := by simpa using he
      exact ⟨hlt, by simp [PoolOp.effect]⟩
  | writerLost w discard conns =>
    obtain ⟨rfl, hconns, rfl, rfl⟩ := hspec
    have hmem : ∀ c, c ∈ conns ↔ p.registry.writerForConn c = some w :=
      hconns ▸ hS.consistent.mem_lostConns w
    refine hT.next le_rfl (fun _ _ hm => hm) (fun c v hv => ?_) (by simp) (by simp) ?_ (by simp)
    · by_cases hvw : v = w
      · subst hvw
        exact .inr (.inl ⟨discard, conns, rfl, (hmem c).mpr hv⟩)
      · exact .inl ((hS.consistent.writerForConn_writerLost w c v).mpr ⟨hvw, hv⟩)
    · rintro v discard' conns' he c hc
      obtain ⟨rfl, rfl, rfl⟩ : w = v ∧ discard = discard' ∧ conns = conns' := by simpa using he
      obtain ⟨u, hu⟩ := hV.bound c w ((hmem c).mp hc)
      cases discard with
      | false => exact ⟨hV.handed_lt c u hu, by simp⟩
      | true =>
        rw [hG w conns rfl] at hc
        cases hc
  | routeClose c =>
    rcases hspec with ⟨cs, -, rfl, rfl, rfl⟩ | ⟨w, rfl, rfl, rfl⟩
    · refine hT.next le_rfl (fun _ _ hm => hm) (fun _ _ hw => .inl hw) (fun cs' he d hd => ?_) (by simp)
        (by simp) (by simp)
      obtain rfl : cs = cs' := by simpa using he
      by_cases hdc : d = c
      · exact .inr ⟨by rw [hdc], by simp [hdc]⟩
      · exact .inl ⟨cs.erase c, (List.mem_erase_of_ne hdc).mpr hd, by simp⟩
    · exact hT.mono rfl rfl (by simp)
  | _ => exact absurd rfl hq

end

/-! ### Once everything has finished -/

/-- The frame is part of a send or of the removal of a writer. -/
def inFlight : Frame → Bool
  | .send _ _ | .unregister _ | .removeList _ _ | .removeClose _ | .removeRefill _ | .removeLost _ _
  | .closeClients _ | .readerExit _ | .readerRetain _ | .pingExit _ | .markDraining _ | .prune
  | .pruneNext _ => true
  | _ => false

/-- The clients and the writers agree: no registered client waits for a writer that is gone. -/
structure NoOrphan (cfg : PoolConfig) : Prop where
  served : ∀ c v, .enqueue c v ∈ cfg.history → cfg.shared.registry.map c ≠ none →
    ∃ w ∈ cfg.shared.writerIds, cfg.shared.registry.writerForConn c = some w
  bound : ∀ c w, cfg.shared.registry.writerForConn c = some w → w ∈ cfg.shared.writerIds
  removed : ∀ c w m, .bindWriter c w m ∈ cfg.history → w ∉ cfg.shared.writerIds →
    cfg.shared.registry.map c = none
  told : ∀ w discard conns c, .writerLost w discard conns ∈ cfg.history → c ∈ conns →
    .routeClose c ∈ cfg.history ∧ cfg.shared.registry.map c = none

/-- A client is bound before its writer is purged, and a `writer_lost` whose result is dropped finds
    the writer without clients. -/
def keepsTrack (cfg : PoolConfig) : PoolOp → Bool
  | .bindWriter _ w _ => !purged cfg.history w
  | .writerLost w true _ => cfg.shared.registry.isWriterEmpty w
  | _ => true

/-- The invariants that together place every client. -/
structure Tracked (p : MePool) (h : List PoolOp) (M : Multiset Frame) : Prop where
  pushes : Pushes p h M
  senders : Senders p M
  served : Served p h M
  placed : Placed p h M
  told : Told p h M

theorem tracked_of_run {start : ℕ} {ls : List (ℕ × Answer)} {cfg : PoolConfig}
    (hmeets : poolProgram.Meets keepsTrack (initial start) ls)
    (hrun : run poolProgram.step (initial start) ls = some cfg) :
    Tracked cfg.shared cfg.history cfg.frames := by
  refine Program.interleave_invariant (I := Tracked) ?_ ls ⟨pushes_initial start,
    senders_initial start, served_initial start, placed_initial start, told_initial start⟩ hmeets hrun
  intro c f R a e fs sp hI hexec hG
  have hspec := exec_spec hexec
  have hbind : ∀ d w m, e = .bindWriter d w m → purged c.history w = false := by
    rintro d w m rfl
    simpa [keepsTrack] using hG
  have hdrop : ∀ w conns, e = .writerLost w true conns → conns = [] := by
    rintro w conns rfl
    obtain ⟨-, rfl, -⟩ := hspec
    have hempty := (ConnRegistry.isWriterEmpty_iff _ w).mp (show _ = true from hG)
    refine List.eq_nil_iff_forall_not_mem.mpr fun d hd => ?_
    have hbound := (hI.senders.consistent.mem_lostConns w d).mp hd
    rw [hI.senders.consistent.bound_iff, hempty] at hbound
    cases hbound
  exact ⟨hI.pushes.step hspec, hI.senders.step hspec, hI.served.step hI.senders hspec hdrop,
    hI.placed.step hI.pushes hI.senders hspec hbind, hI.told.step hI.senders hI.served hspec hdrop⟩

/-- A frame that is neither a send nor a removal has nothing left to do to the clients. -/
theorem idle_of_not_inFlight {g : Frame} (h : inFlight g = false) :
    purges g = none ∧ binds g = none ∧ closes g = [] := by
  cases g with
  | _ => first | exact ⟨rfl, rfl, rfl⟩ | cases h

/-- In every run in which clients are bound before their writer is purged and no dropped result of
    `writer_lost` holds a client: whenever no send and no removal is in flight, every registered
    client whose payload was enqueued is bound to a listed writer, no client is bound to a removed
    one, and the clients of a removed writer were told `Close` and are unregistered. -/
theorem no_orphaned_client (start : ℕ) (ls : List (ℕ × Answer)) (cfg : PoolConfig)
    (hrun : run poolProgram.step (initial start) ls = some cfg)
    (hmeets : poolProgram.Meets keepsTrack (initial start) ls)
    (hidle : ∀ g ∈ cfg.frames, inFlight g = false) : NoOrphan cfg := by
  have hI := tracked_of_run hmeets hrun
  have hpurge : ∀ w, ¬ ∃ g ∈ cfg.frames, purges g = some w := by
    rintro w ⟨g, hg, hgw⟩
    cases (idle_of_not_inFlight (hidle g hg)).1.symm.trans hgw
  have hbinds : ∀ c, ¬ ∃ g ∈ cfg.frames, binds g = some c := by
    rintro c ⟨g, hg, hgc⟩
    cases (idle_of_not_inFlight (hidle g hg)).2.1.symm.trans hgc
  have hcloses : ∀ c, ¬ ∃ g ∈ cfg.frames, c ∈ closes g := by
    rintro c ⟨g, hg, hgc⟩
    rw [(idle_of_not_inFlight (hidle g hg)).2.2] at hgc
    cases hgc
  have hbound : ∀ c w, cfg.shared.registry.writerForConn c = some w →
      w ∈ cfg.shared.writerIds := by
    intro c w hc
    obtain ⟨hpushed, hno⟩ := hI.placed.bound c w hc
    rcases hI.placed.kept w hpushed with hw | hw | hw
    · exact hw
    · simp [hno] at hw
    · exact absurd hw (hpurge w)
  have htold : ∀ w discard conns c, .writerLost w discard conns ∈ cfg.history → c ∈ conns →
      .routeClose c ∈ cfg.history ∧ cfg.shared.registry.map c = none := by
    intro w discard conns c hl hc
    obtain ⟨-, ⟨cs, hcs, hM⟩ | ⟨hclosed, hM | hM⟩⟩ := hI.told.told w discard conns c hl hc
    · exact absurd ⟨_, hM, hcs⟩ (hcloses c)
    · exact absurd ⟨_, hM, List.mem_singleton_self c⟩ (hcloses c)
    · exact ⟨hclosed, hM⟩
  refine ⟨fun c v hc hm => ?_, hbound, fun c w m hb hw => ?_, htold⟩
  · rcases hI.served.served c v hc hm with ⟨w, hw⟩ | hb | hb
    · exact ⟨w, hbound c w hw, hw⟩
    · exact absurd hb (hbinds c)
    · exact absurd hb (hcloses c)
  · rcases (hI.told.left c w m hb).2 with hc | ⟨discard, conns, hl, hc⟩ | hm
    · exact absurd (hbound c w hc) hw
    · exact (htold w discard conns c hl hc).2
    · exact hm

/-- The reader task of writer 1 ends, and the client bound to the writer is closed. -/
theorem no_orphaned_client_reader_exit :
    let addr : SocketAddr := ⟨.v4 ⟨[127, 0, 0, 1], rfl⟩, 443⟩
    let ls := bindRun addr ++ [(4, .exit), (4, .go), (4, .go), (4, .go), (4, .go), (4, .go),
      (4, .pick 1), (4, .go), (4, .go), (4, .go)]
    ∃ cfg, run poolProgram.step (initial 1) ls = some cfg ∧
      .writerLost 1 false [1] ∈ cfg.history ∧ .routeClose 1 ∈ cfg.history ∧
      cfg.shared.registry.map 1 = none := by
  intro addr ls
  have heval : (run poolProgram.step (initial 1) ls).map (fun cfg => (cfg.tasks.flatten,
      decide (.writerLost 1 false [1] ∈ cfg.history))) =
      some ([.proxy, .relay 1, .writerTask 1, .ping 1], true) := by decide +kernel
  obtain ⟨cfg, hrun, hcfg⟩ := Option.map_eq_some_iff.mp heval
  simp only [Prod.mk.injEq, decide_eq_true_eq] at hcfg
  obtain ⟨hframes, hlost⟩ := hcfg
  have hno := no_orphaned_client 1 ls cfg hrun (by decide +kernel)
    (by simp [Config.frames, hframes, inFlight])
  exact ⟨cfg, hrun, hlost, hno.told 1 false [1] 1 hlost (by simp)⟩

/-- The reader task of writer 1 ends and removes the writer between the enqueue and the bind of
    client 1: with all of it done, the client is registered and bound to a writer that is gone. -/
theorem late_bind_orphans_client :
    let addr : SocketAddr := ⟨.v4 ⟨[127, 0, 0, 1], rfl⟩, 443⟩
    let ls := sendRun addr ++ [(4, .exit), (4, .go), (4, .go), (4, .go), (4, .go), (4, .go), (4, .go),
      (4, .go), (1, .go)]
    ∃ cfg, run poolProgram.step (initial 1) ls = some cfg ∧
      cfg.tasks.flatten = [.proxy, .relay 1, .writerTask 1, .ping 1] ∧
      .enqueue 1 1 ∈ cfg.history ∧ cfg.shared.registry.map 1 ≠ none ∧
      cfg.shared.registry.writerForConn 1 = some 1 ∧ cfg.shared.writerIds = [] ∧
      .routeClose 1 ∉ cfg.history ∧ ¬ NoOrphan cfg := by
  intro addr ls
  have heval : (run poolProgram.step (initial 1) ls).map (fun cfg => (cfg.tasks.flatten,
      decide (.enqueue 1 1 ∈ cfg.history ∧ .routeClose 1 ∉ cfg.history ∧
        cfg.shared.registry.map 1 ≠ none), cfg.shared.registry.writerForConn 1,
      cfg.shared.writerIds)) =
      some ([.proxy, .relay 1, .writerTask 1, .ping 1], true, some 1, []) := by decide +kernel
  obtain ⟨cfg, hrun, hcfg⟩ := Option.map_eq_some_iff.mp heval
  simp only [Prod.mk.injEq, decide_eq_true_eq] at hcfg
  obtain ⟨hframes, ⟨hsent, hclose, hreg⟩, hw, hws⟩ := hcfg
  refine ⟨cfg, hrun, hframes, hsent, hreg, hw, hws, hclose, fun h => ?_⟩
  have hin := h.bound 1 1 hw
  simp [hws] at hin

end MtProxy.MiddleProxy
