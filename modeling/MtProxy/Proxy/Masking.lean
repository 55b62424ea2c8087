import MtProxy.Schemes.Copy
import MtProxy.Transport.ProxyProtocol

/-! `handle_bad_client`: a client that failed the handshake is connected to the mask host.

        connecting ──▶ PROXY header ──▶ initial data ──▶ relaying ──▶ ended
             │                                              ├─ c2m: client ──▶ mask host
             └──▶ consuming ──▶ ended                       └─ m2c: mask host ──▶ client

    The two directions are tasks of their own. A timeout, of the relay or of the handshake around the
    handler, drops the handler and with it their handles, but not the tasks: they go on to the end of
    their streams. The clock is left out, a timeout may come at any moment. -/

namespace MtProxy.Proxy.Masking
open Schemes MiddleProxy Network Transport

def maskBufferSize : ℕ := 8192

/-- What the handler reads of `CensorshipConfig`, but for where the mask host is. -/
structure CensorshipConfig where
  mask : Bool
  maskProxyProtocol : UInt8

/-- Version 1 is what every version but 0 and 2 stands for. -/
def proxyHeader (text : IpText) (version : UInt8) (peer localAddr : SocketAddr) : Option (List UInt8) :=
  if version = 0 then none
  else if version = 2 then some (ProxyProtocolV2Builder.new.withAddrs peer localAddr).build
  else some <| match peer.ip, localAddr.ip with
    | .v4 _, .v4 _ => (ProxyProtocolV1Builder.new.tcp4 peer localAddr).build text
    | .v6 _, .v6 _ => (ProxyProtocolV1Builder.new.tcp6 peer localAddr).build text
    | _, _ => ProxyProtocolV1Builder.new.build text

/-! ### The handler and its two tasks -/

inductive HandlerPc where
  | connecting
  | writing (rest : List UInt8) (next : List (List UInt8))
  | relaying
  | consuming
  | ended

/-- `c2m.delivered` is what the mask host got, `m2c.delivered` what the client got. -/
structure MaskSession where
  handler : HandlerPc
  spawned : Bool
  c2m : Copy UInt8
  m2c : Copy UInt8

inductive MaskEvent where
  | connected
  | connectFails
  | write (n : ℕ)
  | writeFails
  | consume (n : ℕ)
  | consumeFails
  | dropped
  | joined
  | c2m (m : CopyMove)
  | m2c (m : CopyMove)

/-- A `write_all` of nothing is done at once; behind the last one the tasks are spawned. -/
def writeAll (s : MaskSession) : List (List UInt8) → MaskSession
  | [] => { s with handler := .relaying, spawned := true }
  | [] :: next => writeAll s next
  | rest :: next => { s with handler := .writing rest next }

/-- The handler when it is called, for a client that still has `client` to send. -/
def start (config : CensorshipConfig) (client mask : List UInt8) : MaskSession where
  handler := if config.mask then .connecting else .consuming
  spawned := false
  c2m := ⟨client, [], [], none⟩
  m2c := ⟨mask, [], [], none⟩

section
variable (writes : List (List UInt8))

def step (s : MaskSession) : MaskEvent → Option MaskSession
  | .connected =>
    match s.handler with
    | .connecting => some (writeAll s writes)
    | _ => none
  | .connectFails =>
    match s.handler with
    | .connecting => some { s with handler := .consuming }
    | _ => none
  | .write n =>
    match s.handler with
    | .writing rest next =>
      if 0 < n ∧ n ≤ rest.length then
        some (writeAll { s with c2m := { s.c2m with delivered := s.c2m.delivered ++ rest.take n } }
          (rest.drop n :: next))
      else none
    | _ => none
  | .writeFails =>
    match s.handler with
    | .writing _ _ => some { s with handler := .ended }
    | _ => none
  | .consume n =>
    match s.handler with
    | .consuming =>
      if n ≤ maskBufferSize ∧ n ≤ s.c2m.source.length ∧ (n = 0 → s.c2m.source = []) then
        if n = 0 then some { s with handler := .ended }
        else some { s with c2m := { s.c2m with source := s.c2m.source.drop n } }
      else none
    | _ => none
  | .consumeFails =>
    match s.handler with
    | .consuming => some { s with handler := .ended }
    | _ => none
  | .dropped =>
    match s.handler with
    | .ended => none
    | _ => some { s with handler := .ended }
  | .joined =>
    match s.handler with
    | .relaying =>
      if s.c2m.ended.isSome ∨ s.m2c.ended.isSome then some { s with handler := .ended } else none
    | _ => none
  | .c2m m => if s.spawned then (s.c2m.step maskBufferSize m).map ({ s with c2m := · }) else none
  | .m2c m => if s.spawned then (s.m2c.step maskBufferSize m).map ({ s with m2c := · }) else none

end

/-- The writes to the mask host before the tasks are spawned. -/
def handlerWrites (text : IpText) (config : CensorshipConfig) (initialData : List UInt8)
    (peer localAddr : SocketAddr) : List (List UInt8) :=
  (proxyHeader text config.maskProxyProtocol peer localAddr).toList ++ [initialData]

/-! ### What each side has got -/

/-- Before the tasks are spawned the handler has the streams for itself; `sent` is what it is to write. -/
structure Alone (sent client mask : List UInt8) (s : MaskSession) : Prop where
  hand : s.c2m.hand = []
  running : s.c2m.ended = none
  m2c : s.m2c = ⟨mask, [], [], none⟩
  place : match s.handler with
    | .connecting => s.c2m.delivered = [] ∧ s.c2m.source = client
    | .writing rest next => s.c2m.delivered ++ (rest ++ next.flatten) = sent ∧ s.c2m.source = client
    | .relaying => False
    | .consuming => s.c2m.delivered = []
    | .ended => s.c2m.delivered <+: sent

/-- Behind that the tasks have them. -/
structure Spawned (sent client mask : List UInt8) (s : MaskSession) : Prop where
  c2m : s.c2m.whole = sent ++ client
  m2c : s.m2c.whole = mask
  c2mComplete : s.c2m.Complete
  m2cComplete : s.m2c.Complete
  handler : s.handler = .relaying ∨ s.handler = .ended

def Inv (sent client mask : List UInt8) (s : MaskSession) : Prop :=
  (s.spawned = false ∧ Alone sent client mask s) ∨ (s.spawned = true ∧ Spawned sent client mask s)

section
variable {writes : List (List UInt8)} {sent client mask : List UInt8} {s s' : MaskSession}

theorem inv_start (config : CensorshipConfig) (sent client mask : List UInt8) :
    Inv sent client mask (start config client mask) := by
  refine .inl ⟨rfl, rfl, rfl, rfl, ?_⟩
  cases hmask : config.mask <;> simp [start, hmask]

/-- The handler goes on writing, or the tasks take over. -/
theorem inv_writeAll (c2m : Copy UInt8) (hhand : c2m.hand = []) (hrunning : c2m.ended = none)
    (hsource : c2m.source = client) (handler : HandlerPc) {writes : List (List UInt8)}
    (hsent : c2m.delivered ++ writes.flatten = sent) :
    Inv sent client mask (writeAll ⟨handler, false, c2m, ⟨mask, [], [], none⟩⟩ writes) := by
  induction writes with
  | nil =>
    rw [List.flatten_nil, List.append_nil] at hsent
    refine .inr ⟨rfl, ?_, by simp [writeAll, Copy.whole], ?_, ?_, .inl rfl⟩
    · simp [writeAll, Copy.whole, hhand, hsource, hsent]
    · intro hended
      cases hrunning.symm.trans hended
    · intro hended
      cases hended
  | cons rest writes ih =>
    cases rest with
    | nil => exact ih hsent
    | cons b rest =>
      rw [List.flatten_cons] at hsent
      exact .inl ⟨rfl, hhand, hrunning, rfl, hsent, hsource⟩

theorem Spawned.end (h : Spawned sent client mask s) : Spawned sent client mask { s with handler := .ended } :=
  ⟨h.c2m, h.m2c, h.c2mComplete, h.m2cComplete, .inr rfl⟩

/-- A step of the handler before it has spawned the tasks. -/
theorem Alone.step (hsent : writes.flatten = sent) (h : Alone sent client mask s)
    (hspawned : s.spawned = false) {e : MaskEvent} (hstep : step writes s e = some s') :
    Inv sent client mask s' := by
  obtain ⟨handler, spawned, c2m, m2c⟩ := s
  obtain ⟨hhand, hrunning, rfl, hplace⟩ := h
  obtain rfl : spawned = false := hspawned
  cases handler with
  | connecting =>
    obtain ⟨hdelivered, hsource⟩ := hplace
    dsimp only at hdelivered
    cases e with
    | connected =>
      obtain rfl := Option.some.inj hstep
      refine inv_writeAll c2m hhand hrunning hsource _ ?_
      rw [hdelivered, List.nil_append, hsent]
    | connectFails =>
      obtain rfl := Option.some.inj hstep
      exact .inl ⟨rfl, hhand, hrunning, rfl, hdelivered⟩
    | dropped =>
      obtain rfl := Option.some.inj hstep
      refine .inl ⟨rfl, hhand, hrunning, rfl, ?_⟩
      simp only [hdelivered, List.nil_prefix]
    | _ => simp [Masking.step] at hstep
  | writing rest next =>
    obtain ⟨hdelivered, hsource⟩ := hplace
    have hprefix : c2m.delivered <+: sent := ⟨_, hdelivered⟩
    cases e with
    | write n =>
      dsimp only [Masking.step] at hstep
      split at hstep
      · obtain rfl := Option.some.inj hstep
        refine inv_writeAll { c2m with delivered := c2m.delivered ++ rest.take n } hhand hrunning hsource _ ?_
        simp only [List.flatten_cons, List.append_assoc]
        rw [← List.append_assoc (rest.take n), List.take_append_drop, hdelivered]
      · cases hstep
    | writeFails =>
      obtain rfl := Option.some.inj hstep
      exact .inl ⟨rfl, hhand, hrunning, rfl, hprefix⟩
    | dropped =>
      obtain rfl := Option.some.inj hstep
      exact .inl ⟨rfl, hhand, hrunning, rfl, hprefix⟩
    | _ => simp [Masking.step] at hstep
  | relaying => exact hplace.elim
  | consuming =>
    have hprefix : c2m.delivered <+: sent := by
      rw [show c2m.delivered = [] from hplace]
      exact List.nil_prefix
    cases e with
    | consume n =>
      dsimp only [Masking.step] at hstep
      split at hstep
      · split at hstep
        · obtain rfl := Option.some.inj hstep
          exact .inl ⟨rfl, hhand, hrunning, rfl, hprefix⟩
        · obtain rfl := Option.some.inj hstep
          exact .inl ⟨rfl, hhand, hrunning, rfl, hplace⟩
      · cases hstep
    | consumeFails =>
      obtain rfl := Option.some.inj hstep
      exact .inl ⟨rfl, hhand, hrunning, rfl, hprefix⟩
    | dropped =>
      obtain rfl := Option.some.inj hstep
      exact .inl ⟨rfl, hhand, hrunning, rfl, hprefix⟩
    | _ => simp [Masking.step] at hstep
  | ended => cases e <;> simp [Masking.step] at hstep

/-- Once the tasks are spawned, the handler can only end. -/
theorem Spawned.step (h : Spawned sent client mask s) (hspawned : s.spawned = true) {e : MaskEvent}
    (hstep : step writes s e = some s') : s'.spawned = true ∧ Spawned sent client mask s' := by
  cases e with
  | c2m m =>
    rw [Masking.step, if_pos hspawned] at hstep
    obtain ⟨c, hc, rfl⟩ := Option.map_eq_some_iff.mp hstep
    exact ⟨hspawned, (Copy.step_whole hc).trans h.c2m, h.m2c, Copy.step_complete hc, h.m2cComplete,
      h.handler⟩
  | m2c m =>
    rw [Masking.step, if_pos hspawned] at hstep
    obtain ⟨c, hc, rfl⟩ := Option.map_eq_some_iff.mp hstep
    exact ⟨hspawned, h.c2m, (Copy.step_whole hc).trans h.m2c, h.c2mComplete, Copy.step_complete hc,
      h.handler⟩
  | dropped =>
    rcases h.handler with hhandler | hhandler <;> simp only [Masking.step, hhandler] at hstep
    · obtain rfl := Option.some.inj hstep
      exact ⟨hspawned, h.end⟩
    · cases hstep
  | joined =>
    rcases h.handler with hhandler | hhandler <;> simp only [Masking.step, hhandler] at hstep
    · split at hstep
      · obtain rfl := Option.some.inj hstep
        exact ⟨hspawned, h.end⟩
      · cases hstep
    · cases hstep
  | _ => rcases h.handler with hhandler | hhandler <;> simp [Masking.step, hhandler] at hstep

theorem inv_run (hsent : writes.flatten = sent) (config : CensorshipConfig) {es : List MaskEvent}
    (hrun : run (step writes) (start config client mask) es = some s) : Inv sent client mask s := by
  refine run_invariant (fun s e s' hinv hstep => ?_) es (inv_start config sent client mask) hrun
  rcases hinv with ⟨hspawned, h⟩ | ⟨hspawned, h⟩
  · exact h.step hsent hspawned hstep
  · exact .inr (h.step hspawned hstep)

/-- What the mask host has got is the beginning of what it is to get, and so for the client. -/
theorem Inv.prefixes (h : Inv sent client mask s) :
    s.c2m.delivered <+: sent ++ client ∧ s.m2c.delivered <+: mask := by
  rcases h with ⟨-, h⟩ | ⟨-, h⟩
  · refine ⟨?_, by simp [h.m2c]⟩
    have hplace := h.place
    cases hhandler : s.handler with
    | connecting => simp [(hhandler ▸ hplace : _ ∧ _).1]
    | writing rest next =>
      rw [hhandler] at hplace
      rw [← hplace.1, List.append_assoc]
      exact List.prefix_append _ _
    | relaying =>
      rw [hhandler] at hplace
      exact hplace.elim
    | consuming =>
      rw [hhandler] at hplace
      rw [show s.c2m.delivered = [] from hplace]
      exact List.nil_prefix
    | ended =>
      rw [hhandler] at hplace
      exact List.IsPrefix.trans hplace (List.prefix_append _ _)
  · rw [← h.c2m, ← h.m2c]
    exact ⟨s.c2m.delivered_prefix, s.m2c.delivered_prefix⟩

/-- With masking off the client's bytes go nowhere. -/
structure Disabled (s : MaskSession) : Prop where
  handler : s.handler = .consuming ∨ s.handler = .ended
  spawned : s.spawned = false
  c2m : s.c2m.delivered = []
  m2c : s.m2c.delivered = []

theorem Disabled.step (h : Disabled s) {e : MaskEvent} (hstep : step writes s e = some s') :
    Disabled s' := by
  obtain ⟨hhandler, hspawned, hc2m, hm2c⟩ := h
  rcases hhandler with hhandler | hhandler
  · cases e with
    | consume n =>
      simp only [Masking.step, hhandler] at hstep
      split at hstep
      · split at hstep
        · obtain rfl := Option.some.inj hstep
          exact ⟨.inr rfl, hspawned, hc2m, hm2c⟩
        · obtain rfl := Option.some.inj hstep
          exact ⟨.inl rfl, hspawned, hc2m, hm2c⟩
      · cases hstep
    | consumeFails =>
      simp only [Masking.step, hhandler] at hstep
      obtain rfl := Option.some.inj hstep
      exact ⟨.inr rfl, hspawned, hc2m, hm2c⟩
    | dropped =>
      simp only [Masking.step, hhandler] at hstep
      obtain rfl := Option.some.inj hstep
      exact ⟨.inr rfl, hspawned, hc2m, hm2c⟩
    | _ => simp [Masking.step, hhandler, hspawned] at hstep
  · cases e <;> simp [Masking.step, hhandler, hspawned] at hstep

theorem disabled_run {config : CensorshipConfig} (hmask : config.mask = false) {es : List MaskEvent}
    (hrun : run (step writes) (start config client mask) es = some s) : Disabled s :=
  run_invariant (fun _ _ _ h hstep => h.step hstep) es
    ⟨.inl (by simp [start, hmask]), rfl, rfl, rfl⟩ hrun

/-! ### Behind the timeouts -/

def isTask : MaskEvent → Bool
  | .c2m _ => true
  | .m2c _ => true
  | _ => false

/-- What the tasks have to do gets less with each of their steps, and the handler leaves it alone. -/
theorem work_step (hspawned : Spawned sent client mask s) {e : MaskEvent}
    (hstep : step writes s e = some s') :
    s'.c2m.work + s'.m2c.work + (if isTask e then 1 else 0) ≤ s.c2m.work + s.m2c.work := by
  cases e with
  | c2m m =>
    simp only [Masking.step] at hstep
    split at hstep
    · obtain ⟨c, hc, rfl⟩ := Option.map_eq_some_iff.mp hstep
      have hless := Copy.step_work hc
      simp only [isTask, if_true]
      omega
    · cases hstep
  | m2c m =>
    simp only [Masking.step] at hstep
    split at hstep
    · obtain ⟨c, hc, rfl⟩ := Option.map_eq_some_iff.mp hstep
      have hless := Copy.step_work hc
      simp only [isTask, if_true]
      omega
    · cases hstep
  | dropped =>
    rcases hspawned.handler with hhandler | hhandler <;> simp only [Masking.step, hhandler] at hstep
    · obtain rfl := Option.some.inj hstep
      rfl
    · cases hstep
  | joined =>
    rcases hspawned.handler with hhandler | hhandler <;> simp only [Masking.step, hhandler] at hstep
    · split at hstep
      · obtain rfl := Option.some.inj hstep
        rfl
      · cases hstep
    · cases hstep
  | _ => rcases hspawned.handler with hhandler | hhandler <;> simp [Masking.step, hhandler] at hstep

/-- The steps of one task alone. -/
theorem run_c2m (hspawned : s.spawned = true) {ms : List CopyMove} {c : Copy UInt8}
    (hrun : run (Copy.step maskBufferSize) s.c2m ms = some c) :
    run (step writes) s (ms.map .c2m) = some { s with c2m := c } := by
  induction ms generalizing s with
  | nil =>
    obtain rfl := Option.some.inj hrun
    rfl
  | cons m ms ih =>
    obtain ⟨c₁, hc₁, hrun⟩ := run_cons hrun
    have hstep : step writes s (.c2m m) = some { s with c2m := c₁ } := by
      rw [Masking.step, if_pos hspawned, hc₁]
      rfl
    rw [List.map_cons, run, hstep]
    exact ih (s := { s with c2m := c₁ }) hspawned hrun

theorem run_m2c (hspawned : s.spawned = true) {ms : List CopyMove} {c : Copy UInt8}
    (hrun : run (Copy.step maskBufferSize) s.m2c ms = some c) :
    run (step writes) s (ms.map .m2c) = some { s with m2c := c } := by
  induction ms generalizing s with
  | nil =>
    obtain rfl := Option.some.inj hrun
    rfl
  | cons m ms ih =>
    obtain ⟨c₁, hc₁, hrun⟩ := run_cons hrun
    have hstep : step writes s (.m2c m) = some { s with m2c := c₁ } := by
      rw [Masking.step, if_pos hspawned, hc₁]
      rfl
    rw [List.map_cons, run, hstep]
    exact ih (s := { s with m2c := c₁ }) hspawned hrun

/-- Once the two directions run, no timeout stops them: whether the handler has ended or not, a direction
    that has not come to its end can copy all that is left of its stream by its own steps, none of which
    fails, and how many steps the two can still take is bounded by what is left. -/
theorem relay_outlives_timeouts (config : CensorshipConfig) (writes : List (List UInt8))
    (client mask : List UInt8) (es : List MaskEvent) (s : MaskSession)
    (hrun : run (step writes) (start config client mask) es = some s) (hspawned : s.spawned = true) :
    (s.c2m.ended = none → ∃ (ms : List CopyMove) (u : MaskSession),
      (∀ m ∈ ms, ¬ m.Fails) ∧ run (step writes) s (ms.map .c2m) = some u ∧
      u.c2m.delivered = writes.flatten ++ client ∧ u.m2c = s.m2c) ∧
    (s.m2c.ended = none → ∃ (ms : List CopyMove) (u : MaskSession),
      (∀ m ∈ ms, ¬ m.Fails) ∧ run (step writes) s (ms.map .m2c) = some u ∧
      u.m2c.delivered = mask ∧ u.c2m = s.c2m) ∧
    ∀ es' u, run (step writes) s es' = some u → es'.countP isTask ≤ s.c2m.work + s.m2c.work := by
  obtain ⟨hnot, -⟩ | ⟨-, hinv⟩ := inv_run rfl config hrun
  · rw [hspawned] at hnot
    cases hnot
  have hbuffer : 0 < maskBufferSize := by decide
  refine ⟨fun hended => ?_, fun hended => ?_, fun es' u hrun' => ?_⟩
  · obtain ⟨ms, c, hms, hc, hdelivered⟩ := Copy.exists_completion hbuffer hended
    exact ⟨ms, _, hms, run_c2m hspawned hc, hdelivered.trans hinv.c2m, rfl⟩
  · obtain ⟨ms, c, hms, hc, hdelivered⟩ := Copy.exists_completion hbuffer hended
    exact ⟨ms, _, hms, run_m2c hspawned hc, hdelivered.trans hinv.m2c, rfl⟩
  · clear hrun
    induction es' generalizing s with
    | nil => exact Nat.zero_le _
    | cons e es' ih =>
      obtain ⟨s', hstep, hrun'⟩ := run_cons hrun'
      have hless := work_step hinv hstep
      obtain ⟨hspawned', hinv'⟩ := hinv.step hspawned hstep
      have ih := ih s' hspawned' hinv' hrun'
      rw [List.countP_cons]
      omega

/-- The handler is dropped as soon as the first byte was passed on. -/
theorem relay_outlives_timeouts_dropped :
    ∃ (ms : List CopyMove) (u : MaskSession), (∀ m ∈ ms, ¬ m.Fails) ∧
      run (step [[0x16]]) ⟨.ended, true, ⟨[3, 4], [], [0x16], none⟩, ⟨[9], [], [], none⟩⟩ (ms.map .c2m) =
        some u ∧
      u.c2m.delivered = [0x16, 3, 4] ∧ u.m2c = ⟨[9], [], [], none⟩ :=
  (relay_outlives_timeouts ⟨true, 0⟩ [[0x16]] [3, 4] [9]
    [.connected, .write 1, .dropped] _ rfl rfl).1 rfl

end

end MtProxy.Proxy.Masking
