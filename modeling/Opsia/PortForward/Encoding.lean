import Opsia.PortForward.Agent

/-!
# Frames of the agent

The numbers of the frames that the agent builds: a connection sends at least one byte with each
frame and no more bytes than the session may, so the sequence of a frame fits its header, and the
generation is the one that the gateway opens a session with.
-/

namespace Opsia.PortForward

/-- The connection has sent at least one byte with each of its frames, and no more than a session
may. -/
def AgentTcpConnection.Counted (c : AgentTcpConnection) : Prop :=
  c.outputSequence ≤ c.targetToDesktopBytes ∧
    c.targetToDesktopBytes ≤ maxPortForwardBytesPerDirection

namespace AgentPortForwardSession

/-- The generation fits its header, and all connections are counted. -/
def Counted (s : AgentPortForwardSession) : Prop :=
  s.request.generation < 2 ^ 64 ∧ ∀ (connection : ℕ) (c : AgentTcpConnection),
    s.connections[connection]? = some c → c.Counted

variable {s t : AgentPortForwardSession} {task : TaskId}

@[simp] theorem counted_emit {emission : Emission} :
    (s.emit emission).Counted ↔ s.Counted := Iff.rfl

variable {c : AgentTcpConnection} {connection : ℕ} {pending : Pending}

@[simp] theorem counted_await :
    (s.await task pending).Counted ↔ s.Counted := Iff.rfl

@[simp] theorem counted_setStack {stack : List Pending} :
    (s.setStack task stack).Counted ↔ s.Counted := Iff.rfl

@[simp] theorem counted_touch : s.touch.Counted ↔ s.Counted := Iff.rfl

theorem Counted.of_same (h : s.Counted) (hrequest : t.request = s.request)
    (hsame : t.connections = s.connections) : t.Counted := by
  rw [Counted, hrequest, hsame]
  exact h

theorem Counted.change (h : s.Counted) (connection : ℕ)
    {f : AgentTcpConnection → AgentTcpConnection}
    (hf : ∀ c, s.connections[connection]? = some c → c.Counted → (f c).Counted) :
    (s.change connection f).Counted := by
  refine ⟨h.1, fun other c hc => ?_⟩
  rw [AgentPortForwardSession.change, List.getElem?_modify] at hc
  obtain ⟨old, hold, rfl⟩ := Option.map_eq_some_iff.mp hc
  split
  · rename_i hsame
    subst hsame
    exact hf old hold (h.2 _ old hold)
  · exact h.2 other old hold

theorem Counted.finishConnection (h : s.Counted) (task : TaskId) (connectionId : ConnectionId)
    (reason : PortForwardEndReason) :
    (s.finishConnection task connectionId reason).Counted := by
  unfold AgentPortForwardSession.finishConnection
  split
  · exact h
  · rename_i connection _
    have hpopped := h.change connection (f := fun c => { c with listed := false })
      fun c _ hc => hc
    split
    · exact hpopped
    · have hfinishing := hpopped.change connection (f := fun c => { c with done := true })
        fun c _ hc => hc
      split
      · exact counted_await.mpr (hfinishing.change connection fun c _ hc => hc)
      · exact hfinishing.of_same rfl rfl

theorem Counted.handleControl (h : s.Counted) (message : AgentPortForwardRequest) :
    (s.handleControl message).Counted := by
  cases message with
  | connectionOpen connectionId =>
    simp only [AgentPortForwardSession.handleControl, openConnection]
    split_ifs <;> exact h.of_same rfl rfl
  | window connectionId direction creditBytes =>
    simp only [AgentPortForwardSession.handleControl, grantOutputCredit]
    split
    · exact h
    · split
      · exact h
      · split_ifs
        · exact h
        · exact h.of_same rfl rfl
        · exact h.change _ fun c _ hc => hc
  | halfClose connectionId direction =>
    simp only [AgentPortForwardSession.handleControl, halfClose]
    split
    · exact h
    · split
      · exact h
      · split_ifs
        · exact h
        · exact h.of_same rfl rfl
        · exact counted_await.mpr (h.change _ fun c _ hc => hc)
  | connectionClose connectionId => exact h.finishConnection _ _ _
  | close =>
    simp only [AgentPortForwardSession.handleControl, finishSession]
    split_ifs <;> exact h.of_same rfl rfl

theorem Counted.handleData (h : s.Counted) (frame : PortForwardDataFrame) :
    (s.handleData frame).Counted := by
  simp only [AgentPortForwardSession.handleData]
  split
  · exact h
  · split
    · exact h
    · split_ifs
      · exact h
      · exact h.of_same rfl rfl
      · exact h.of_same rfl rfl
      · exact h.of_same rfl rfl
      · exact h.finishConnection _ _ _
      · exact counted_await.mpr (h.change _ fun c _ hc => hc)

theorem Counted.addConnection (h : s.Counted) (connectionId : ConnectionId) :
    (s.addConnection connectionId).Counted := by
  refine ⟨h.1, fun connection c hc => ?_⟩
  simp only [AgentPortForwardSession.addConnection, insert, touch, await, emit, setStack] at hc
  rcases List.mem_append.mp (List.mem_of_getElem? hc) with hold | hnew
  · obtain ⟨old, hmem, rfl⟩ := List.mem_map.mp hold
    obtain ⟨k, hk⟩ := List.getElem?_of_mem hmem
    have hcounted := h.2 k old hk
    split <;> exact hcounted
  · obtain rfl := List.mem_singleton.mp hnew
    exact ⟨le_refl _, Nat.zero_le _⟩

theorem Counted.restoreOutputCredit (h : s.Counted) (connection amount : ℕ) :
    (s.restoreOutputCredit connection amount).Counted :=
  h.change connection fun _ _ hc => hc

theorem bytes_restoreOutputCredit {c' : AgentTcpConnection}
    (hc : s.connections[connection]? = some c) {amount : ℕ}
    (hc' : (s.restoreOutputCredit connection amount).connections[connection]? = some c') :
    c'.targetToDesktopBytes = c.targetToDesktopBytes := by
  rw [AgentPortForwardSession.restoreOutputCredit, AgentPortForwardSession.change,
    List.getElem?_modify, hc] at hc'
  obtain ⟨old, hold, rfl⟩ := Option.map_eq_some_iff.mp hc'
  obtain rfl := Option.some.inj hold
  simp

/-- **What the target sends is counted before it is sent on.** -/
theorem Counted.forwardTarget (h : s.Counted) {data : Bytes} (hdata : data ≠ [])
    (hbytes : ∀ c', s.connections[connection]? = some c' →
      c'.targetToDesktopBytes = c.targetToDesktopBytes) :
    (s.forwardTarget connection c data).Counted := by
  have hpositive := List.length_pos_iff.mpr hdata
  unfold AgentPortForwardSession.forwardTarget
  split
  · rename_i hlimit
    have hcounted : (s.change connection fun c =>
        { c with
          outputSequence := c.outputSequence + 1
          targetToDesktopBytes := c.targetToDesktopBytes + data.length }).Counted := by
      refine h.change connection fun c' hc' hcount => ?_
      have hsame := hbytes c' hc'
      obtain ⟨hsequence, -⟩ := hcount
      unfold WithinByteLimit at hlimit
      refine ⟨?_, ?_⟩ <;> simp only <;> omega
    split
    · exact h
    · split
      · exact hcounted
      · exact hcounted
  · exact h.finishConnection _ _ _

theorem Counted.readTarget (h : s.Counted) (hc : s.connections[connection]? = some c)
    (allowance : ℕ) (data : Bytes) :
    (s.readTarget connection allowance c data).Counted := by
  unfold AgentPortForwardSession.readTarget
  split
  · exact counted_await.mpr (counted_emit.mpr
      ((h.restoreOutputCredit connection allowance).change connection fun _ _ hc => hc))
  · rename_i hdata
    dsimp only
    split
    · exact (h.restoreOutputCredit _ _).forwardTarget hdata fun c' hc' =>
        bytes_restoreOutputCredit hc hc'
    · refine h.forwardTarget hdata fun c' hc' => ?_
      rw [hc] at hc'
      rw [Option.some.inj hc']

theorem Counted.proceed (h : s.Counted) (ht : s.proceed task pending = some t) :
    t.Counted := by
  cases pending with
  | connected connectionId deadline =>
    simp only [AgentPortForwardSession.proceed] at ht
    split at ht
    · exact Option.some.inj ht ▸ h.addConnection connectionId
    · cases ht
  | announceWindow connectionId => exact Option.some.inj ht ▸ h
  | drained connection length nextTotal =>
    obtain ⟨c, -, rfl⟩ := Option.map_eq_some_iff.mp ht
    exact counted_emit.mpr (counted_touch.mpr (h.change connection fun _ _ hc => hc))
  | halfClosed connection =>
    obtain ⟨c, -, rfl⟩ := Option.map_eq_some_iff.mp ht
    split
    · exact h.finishConnection _ _ _
    · exact h
  | finishConnection connectionId => exact Option.some.inj ht ▸ h.finishConnection _ _ _
  | readerStopped connection reason =>
    exact Option.some.inj ht ▸ counted_await.mpr (h.change connection fun _ _ hc => hc)
  | writerClosed connection reason =>
    obtain ⟨c, -, rfl⟩ := Option.map_eq_some_iff.mp ht
    exact h
  | finishRest connectionIds reason =>
    cases connectionIds with
    | nil =>
      obtain rfl := Option.some.inj ht
      unfold stopWatcher
      split <;> exact h
    | cons connectionId connectionIds =>
      exact Option.some.inj ht ▸ (counted_await.mpr h).finishConnection _ _ _
  | endSession reason => exact Option.some.inj ht ▸ h
  | watch =>
    simp only [AgentPortForwardSession.proceed] at ht
    split at ht
    · obtain rfl := Option.some.inj ht
      unfold finishSession
      split <;> exact h
    · obtain rfl := Option.some.inj ht
      split <;> exact h
  | reserve =>
    cases task with
    | reader connection =>
      obtain ⟨c, -, hreserve⟩ := Option.bind_eq_some_iff.mp ht
      simp only [reserveOutputCredit] at hreserve
      split_ifs at hreserve
      · exact Option.some.inj hreserve ▸ h
      · exact Option.some.inj hreserve ▸ counted_await.mpr (h.change connection fun _ _ hc => hc)
    | receiver => cases ht
    | watcher => cases ht
  | read allowance => cases ht
  | targetEnded =>
    cases task with
    | reader connection =>
      obtain ⟨c, -, rfl⟩ := Option.map_eq_some_iff.mp ht
      split
      · exact h.finishConnection _ _ _
      · exact h
    | receiver => cases ht
    | watcher => cases ht

theorem Counted.proceedFailed (h : s.Counted) (ht : s.proceedFailed task pending = some t) :
    t.Counted := by
  cases pending with
  | connected connectionId deadline => exact Option.some.inj ht ▸ h
  | drained connection length nextTotal =>
    obtain ⟨c, -, rfl⟩ := Option.map_eq_some_iff.mp ht
    exact h
  | read allowance =>
    cases task with
    | reader connection =>
      obtain ⟨c, -, rfl⟩ := Option.map_eq_some_iff.mp ht
      exact h
    | receiver => cases ht
    | watcher => cases ht
  | _ => cases ht

theorem Counted.takeUp (h : s.Counted)
    {f : AgentPortForwardSession → Pending → Option AgentPortForwardSession}
    (hf : ∀ s t pending, s.Counted → f s pending = some t → t.Counted) :
    (s.takeUp task f).Counted := by
  unfold AgentPortForwardSession.takeUp
  split
  · exact h
  · rename_i pending rest _
    cases hnext : f (s.setStack task rest) pending with
    | none => exact h
    | some t => exact hf _ t pending (counted_setStack.mpr h) hnext

/-- **A step counts what it sends.** -/
theorem counted_step (s : AgentPortForwardSession) (a : Action) (h : s.Counted) :
    (s.step a).Counted := by
  cases a with
  | receive message =>
    simp only [step]
    split
    · exact h.handleControl message
    · exact h
  | receiveData frame =>
    simp only [step]
    split
    · exact h.handleData frame
    · exact h
  | resume task => exact h.takeUp fun s t pending hs ht => hs.proceed ht
  | fail task => exact h.takeUp fun s t pending hs ht => hs.proceedFailed ht
  | read connection data =>
    refine h.takeUp fun s t pending hs ht => ?_
    cases pending with
    | read allowance =>
      simp only at ht
      split at ht
      · obtain ⟨c, hc, rfl⟩ := Option.map_eq_some_iff.mp ht
        exact hs.readTarget hc allowance data
      · cases ht
    | _ => cases ht
  | elapse seconds => exact h.of_same rfl rfl

theorem counted_run {request : PortForwardOpen} (h : request.generation < 2 ^ 64) (now : ℚ)
    (actions : List Action) : (Runs.run step (opened request now) actions).Counted := by
  refine Runs.run_invariant counted_step ⟨h, fun connection c hc => ?_⟩ actions
  simp [opened] at hc

/-- Every frame that a reader builds from data of the target is constructed and encoded. -/
def BuildsEncodable (s : AgentPortForwardSession) : Prop :=
  ∀ (connection : ℕ) (c : AgentTcpConnection) (data : Bytes),
    s.connections[connection]? = some c → data ≠ [] → data.length ≤ maxPortForwardFrameBytes →
      s.WithinByteLimit connection c data →
        ∃ frame raw, PortForwardDataFrame.make s.request.sessionId s.request.generation
          c.connectionId c.outputSequence .targetToDesktop data = .ok frame ∧
            encodePortForwardData frame = .ok raw

/-- **In a counted session whose generation fits, frames are built and encoded.** -/
theorem buildsEncodable_of_counted (h : s.Counted) :
    s.BuildsEncodable := by
  intro connection c data hc hdata hfits hlimit
  obtain ⟨hsequence, hbytes⟩ := h.2 connection c hc
  have hpositive := List.length_pos_iff.mpr hdata
  let frame : PortForwardDataFrame :=
    ⟨s.request.sessionId, s.request.generation, c.connectionId, c.outputSequence,
      .targetToDesktop, data, s.request.session_ok, s.request.generation_ok,
      c.connectionId.property, by omega, hpositive, hfits⟩
  have hencodable : frame.Encodable := by
    refine ⟨h.1, ?_⟩
    simp only [maxPortForwardBytesPerDirection] at hbytes
    simp only [frame]
    omega
  obtain ⟨raw, hraw⟩ := (encodable_iff frame).mpr hencodable
  exact ⟨frame, raw, frame.make_self, hraw⟩

end AgentPortForwardSession

/-- The `PortForwardOpen` that `serve_browser` of the gateway sends, with a session id of
`secrets.token_urlsafe`. -/
def serveBrowserOpen (sessionId : String) (h : sessionMatches sessionId = true) :
    PortForwardOpen where
  sessionId
  generation := 1
  session_ok := h
  generation_ok := le_refl 1

/-- **The law of data frames**: frames that fit come back from their bytes, accepted bytes from
their frame, all other bytes raise `ValueError`, and in a session that the gateway opens every frame
that the agent builds fits. -/
theorem data_frames_law :
    (∀ frame : PortForwardDataFrame, frame.generation < 2 ^ 64 → frame.sequence < 2 ^ 64 →
      ∃ raw, encodePortForwardData frame = .ok raw ∧ decodePortForwardData raw = .ok frame) ∧
    (∀ raw frame, decodePortForwardData raw = .ok frame → encodePortForwardData frame = .ok raw) ∧
    (∀ raw, (∀ frame, encodePortForwardData frame ≠ .ok raw) →
      ∃ message, decodePortForwardData raw = .error (.valueError message)) ∧
    (∀ (sessionId : String) (hsession : sessionMatches sessionId = true) (now : ℚ)
      (actions : List AgentPortForwardSession.Action),
      (Runs.run AgentPortForwardSession.step
        (.opened (serveBrowserOpen sessionId hsession) now) actions).BuildsEncodable) := by
  refine ⟨fun frame hgeneration hsequence => ?_, fun raw frame => encode_of_decode,
    fun raw hother => ?_, fun sessionId hsession now actions => ?_⟩
  · obtain ⟨raw, hraw⟩ := (encodable_iff frame).mpr ⟨hgeneration, hsequence⟩
    exact ⟨raw, hraw, decode_of_encode hraw⟩
  · cases hdecode : decodePortForwardData raw with
    | ok frame => exact absurd (encode_of_decode hdecode) (hother frame)
    | error error =>
      obtain ⟨message, rfl⟩ := decode_eq_error hdecode
      exact ⟨message, rfl⟩
  · have hgeneration : (serveBrowserOpen sessionId hsession).generation < 2 ^ 64 := by
      change (1 : ℤ) < 2 ^ 64
      decide
    exact AgentPortForwardSession.buildsEncodable_of_counted
      (AgentPortForwardSession.counted_run hgeneration now actions)

end Opsia.PortForward
