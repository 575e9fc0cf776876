import Inferno.InfoMulticaster
import Inferno.Lib.PeakRegister

/-!
# Latencies in the heartbeat

The thread of a receiver raises the counter of a flow to the latency of each packet, and
the heartbeat takes what the counters of the flows have and sets them back. Flows are
added and removed meanwhile, and the thread is behind with that.

A listener reads the latencies that were taken (`latencyReadings`). Of each counter the
packets fall into groups, and each heartbeat that has its flow tells the greatest latency
of the next group; counters are not mixed up (`latencies_told_once`).
-/

namespace Inferno

open ByteBuffer PeakRegister

namespace InfoMcast

/-! ## Reading a heartbeat -/

/-- A block of a heartbeat: its length is in front. -/
structure Block where
  id : BitVec 16
  counter : BitVec 16
  payload : List Byte
deriving DecidableEq

/-- The blocks one after the other, up to the end. -/
def readBlocks : Nat → List Byte → Option (List Block)
  | _, [] => some []
  | 0, _ => none
  | fuel + 1, b =>
      let len := (word16 b 0).toNat
      if len < 12 ∨ b.length < len then none
      else (readBlocks fuel (b.drop len)).map
        (⟨word16 b 2, word16 b 8, (b.take len).drop 12⟩ :: ·)

def words32 : List Byte → List (BitVec 32)
  | a :: b :: c :: d :: rest => (a ++ b ++ c ++ d) :: words32 rest
  | _ => []

/-- The latencies of a heartbeat that has some. -/
def readLatencies (content : List Byte) : Option (List Int) :=
  match readBlocks content.length content with
  | some [b, _] =>
      if b.id = 0x8003 then some ((words32 (b.payload.drop 12)).map fun x => (x.toNat : Int))
      else none
  | _ => none

/-- What a listener makes of the datagrams. -/
def latencyReadings (sent : List (SocketAddr × List Byte)) : List (List Int) :=
  sent.filterMap fun d =>
    if d.1 = heartbeatDestination then readLatencies (Mcast.View.new d.2).content else none

theorem readBlocks_cons {len id a b ctr c : BitVec 16} {payload rest : List Byte}
    (hlen : len.toNat = 12 + payload.length) (fuel : Nat) :
    readBlocks (fuel + 1) (be16 len ++ be16 id ++ be16 a ++ be16 b ++ be16 ctr ++ be16 c ++
        payload ++ rest) =
      (readBlocks fuel rest).map (⟨id, ctr, payload⟩ :: ·) := by
  have hsize : (be16 len ++ be16 id ++ be16 a ++ be16 b ++ be16 ctr ++ be16 c).length = 12 := rfl
  have hid : word16 (be16 len ++ be16 id ++ be16 a ++ be16 b ++ be16 ctr ++ be16 c ++
      payload ++ rest) 2 = id := by
    simp only [List.append_assoc]
    rw [word16_skip16 len _ 0, word16_be16]
  have hctr : word16 (be16 len ++ be16 id ++ be16 a ++ be16 b ++ be16 ctr ++ be16 c ++
      payload ++ rest) 8 = ctr := by
    simp only [List.append_assoc]
    rw [word16_skip16 len _ 6, word16_skip16 id _ 4, word16_skip16 a _ 2, word16_skip16 b _ 0,
      word16_be16]
  have hfirst : word16 (be16 len ++ be16 id ++ be16 a ++ be16 b ++ be16 ctr ++ be16 c ++
      payload ++ rest) 0 = len := by
    simp only [List.append_assoc]
    exact word16_be16 len _
  have hwhole : (be16 len ++ be16 id ++ be16 a ++ be16 b ++ be16 ctr ++ be16 c ++
      payload).length = len.toNat := by
    rw [List.length_append, hsize, hlen]
  rw [readBlocks, hfirst, hid, hctr, List.take_left' hwhole, List.drop_left' hwhole,
    List.drop_left' hsize, if_neg]
  · rw [List.length_append, hwhole]
    omega
  · exact fun h => List.cons_ne_nil _ _ h

theorem readBlocks_last {len id a b ctr c : BitVec 16} {payload : List Byte}
    (hlen : len.toNat = 12 + payload.length) (fuel : Nat) :
    readBlocks (fuel + 1) (be16 len ++ be16 id ++ be16 a ++ be16 b ++ be16 ctr ++ be16 c ++
        payload) = some [⟨id, ctr, payload⟩] := by
  have hcons := @readBlocks_cons len id a b ctr c payload [] hlen fuel
  rw [List.append_nil] at hcons
  rw [hcons]
  cases fuel <;> rfl

theorem words32_flatMap (xs : List (BitVec 32)) : words32 (xs.flatMap be32) = xs := by
  induction xs with
  | nil => rfl
  | cons x xs ih =>
      have hword := word32_be32 x (xs.flatMap be32)
      rw [List.flatMap_cons, be32, List.cons_append, List.cons_append, List.cons_append,
        List.cons_append, List.nil_append, words32, ih]
      exact congrArg (· :: xs) hword

/-- A latency that a flow may have. -/
def IsLatency (x : Int) : Prop := 0 ≤ x ∧ x ≤ 2 ^ 31 - 1

theorem toNat_latency {x : Int} (h : IsLatency x) :
    ((BitVec.ofInt 32 (max 0 (min x (2 ^ 31 - 1)))).toNat : Int) = x := by
  have hclamp : max 0 (min x (2 ^ 31 - 1)) = x := by
    have hlow := h.1
    have hhigh := h.2
    omega
  rw [hclamp, BitVec.toNat_ofInt]
  have hlow := h.1
  have hhigh := h.2
  omega

/-- The latencies of a heartbeat are read as they are. -/
theorem readLatencies_latencyBlocks (ctr : BitVec 16) (sampleRate : BitVec 32)
    {latencies : List Int} (hfew : latencies.length ≤ MAX_FLOWS)
    (hrange : ∀ x ∈ latencies, IsLatency x) :
    readLatencies (latencyBlocks ctr sampleRate latencies) = some latencies := by
  have hcount : (BitVec.ofNat 16 latencies.length).toNat = latencies.length := by
    rw [BitVec.toNat_ofNat]
    exact Nat.mod_eq_of_lt (by unfold MAX_FLOWS at hfew; omega)
  have hsize : ∀ k : Nat, k ≤ 24 →
      (BitVec.ofNat 16 k + BitVec.ofNat 16 latencies.length * 4).toNat =
        k + latencies.length * 4 := by
    intro k hk
    unfold MAX_FLOWS at hfew
    have hfour : (4 : BitVec 16).toNat = 4 := rfl
    rw [BitVec.toNat_add, BitVec.toNat_mul, hcount, BitVec.toNat_ofNat, hfour]
    omega
  obtain ⟨fuel, hfuel⟩ : ∃ fuel, (latencyBlocks ctr sampleRate latencies).length = fuel + 1 + 1 := by
    refine ⟨_, (Nat.sub_add_cancel (m := 2) ?_).symm⟩
    simp [latencyBlocks]
  rw [readLatencies, hfuel, latencyBlocks, readBlocks_cons, readBlocks_last, Option.map_some]
  · have hdrop : ∀ tail : List Byte, (be16 (BitVec.ofNat 16 latencies.length) ++ be16 0 ++ be16 24 ++
        be16 0 ++ be32 sampleRate ++ tail).drop 12 = tail := fun tail => List.drop_left' rfl
    dsimp only
    rw [if_pos rfl, hdrop, ← List.flatMap_map _ be32, words32_flatMap, List.map_map]
    refine congrArg some ?_
    conv_rhs => rw [← List.map_id latencies]
    exact List.map_congr_left fun x hx => toNat_latency (hrange x hx)
  · rw [show (20 : BitVec 16) = BitVec.ofNat 16 20 from rfl, hsize 20 (by decide), hcount]
    simp
    omega
  · rw [show (24 : BitVec 16) = BitVec.ofNat 16 24 from rfl, hsize 24 (by decide)]
    simp
    omega

theorem length_latencyBlocks (ctr : BitVec 16) (sampleRate : BitVec 32) (latencies : List Int) :
    (latencyBlocks ctr sampleRate latencies).length ≤ 44 + 8 * latencies.length := by
  have hcount : (BitVec.ofNat 16 latencies.length).toNat ≤ latencies.length := by
    rw [BitVec.toNat_ofNat]
    exact Nat.mod_le _ _
  have hflows : ((List.range (BitVec.ofNat 16 latencies.length).toNat).flatMap
      fun _ => be32 0).length = 4 * (BitVec.ofNat 16 latencies.length).toNat := by
    simp [Nat.mul_comm]
  have hvalues : (latencies.flatMap fun latency =>
      be32 (BitVec.ofInt 32 (max 0 (min latency (2 ^ 31 - 1))))).length = 4 * latencies.length := by
    simp [Nat.mul_comm]
  simp only [latencyBlocks, List.length_append, length_be16, length_be32, hflows, hvalues]
  omega

theorem readLatencies_utilizationBlocks (ctr : BitVec 16) (freqOffset : BitVec 32) :
    readLatencies (utilizationBlocks ctr freqOffset) = none := by
  have hlength : (utilizationBlocks ctr freqOffset).length = 50 + 1 + 1 := rfl
  rw [readLatencies, hlength, utilizationBlocks, readBlocks_cons rfl, readBlocks_last rfl]
  rfl

end InfoMcast

/-! ## The counters -/

open InfoMcast

/-- `actual_latency_samples` of a flow. -/
abbrev LatencyArc := Nat

/-- The commands that bring a counter to the thread and drop it there. -/
inductive CounterCommand where
  | addSocket (index : Nat) (arc : LatencyArc)
  | removeSocket (index : Nat)

/-- What a `FlowsReceiver` and its thread have of the counters. -/
structure CountedFlows where
  flowsInfo : List (Option LatencyArc)
  commands : List CounterCommand
  sockets : List (Option LatencyArc)
  running : Bool

/-- A packet has been received by a socket. -/
structure Measured (R : Type) where
  receiver : R
  index : Nat
  arc : LatencyArc
  latency : Int

/-- The latencies in a heartbeat, with the flows they were taken from. -/
structure Telling (R : Type) where
  receiver : R
  flows : List (Option LatencyArc)
  values : List Int

/-- The server, the receivers there ever are, and the counters: whose they are, and what was
measured and told. -/
structure HeartbeatWorld (R : Type) where
  server : InfoServer
  subscriber : Option R
  receivers : R → CountedFlows
  latencies : LatencyArc → Int
  nextArc : LatencyArc
  owner : LatencyArc → Option (R × Nat)
  measured : List (Measured R)
  told : List (Telling R)

inductive HeartbeatEvent (R : Type) where
  | server (e : InfoEvent)
  | subscribe (r : Option R)
  | addSocket (r : R) (index : Nat)
  | removeSocket (r : R) (index : Nat)
  | handleCommand (r : R)
  | packet (r : R) (index : Nat) (now timestamp : Clock)
  | stop (r : R)

/-- `swap(0)` of each flow in turn; no flow has no latency. -/
def swapLatencies : List (Option LatencyArc) → (LatencyArc → Int) → List Int × (LatencyArc → Int)
  | [], latencies => ([], latencies)
  | none :: flows, latencies =>
      let (values, latencies) := swapLatencies flows latencies
      (0 :: values, latencies)
  | some arc :: flows, latencies =>
      let (values, rest) := swapLatencies flows (Function.update latencies arc 0)
      (latencies arc :: values, rest)

namespace HeartbeatWorld

variable {R : Type} [DecidableEq R] (info : SelfInfo) (w : HeartbeatWorld R)

def start : HeartbeatWorld R where
  server := InfoServer.start info
  subscriber := none
  receivers := fun _ => ⟨List.replicate MAX_FLOWS none, [], List.replicate MAX_FLOWS none, true⟩
  latencies := fun _ => 0
  nextArc := 0
  owner := fun _ => none
  measured := []
  told := []

def setReceiver (r : R) (flows : CountedFlows) : HeartbeatWorld R :=
  { w with receivers := Function.update w.receivers r flows }

/-- A heartbeat, with a clock and a subscriber. -/
def tell (freqOffset : BitVec 32) (r : R) : HeartbeatWorld R :=
  let (values, latencies) := swapLatencies (w.receivers r).flowsInfo w.latencies
  { w with
    server := w.server.sendHeartbeat info freqOffset (some values)
    latencies
    told := w.told ++ [⟨r, (w.receivers r).flowsInfo, values⟩] }

/-- `add_socket`: the counter of the new flow goes to the thread with its socket. -/
def addSocket (r : R) (index : Nat) : HeartbeatWorld R :=
  let flows := w.receivers r
  if index < flows.flowsInfo.length then
    { w.setReceiver r { flows with
        flowsInfo := flows.flowsInfo.set index (some w.nextArc)
        commands := flows.commands ++ [.addSocket index w.nextArc] } with
      latencies := Function.update w.latencies w.nextArc 0
      nextArc := w.nextArc + 1
      owner := Function.update w.owner w.nextArc (some (r, index)) }
  else w

/-- `remove_socket`. -/
def removeSocket (r : R) (index : Nat) : HeartbeatWorld R :=
  let flows := w.receivers r
  if index < flows.flowsInfo.length then
    w.setReceiver r { flows with
      flowsInfo := flows.flowsInfo.set index none
      commands := flows.commands ++ [.removeSocket index] }
  else w

/-- The thread takes a command; it panics if there is nothing to remove. -/
def handleCommand (r : R) : HeartbeatWorld R :=
  let flows := w.receivers r
  if !flows.running then w
  else match flows.commands with
    | [] => w
    | .addSocket index arc :: commands =>
        w.setReceiver r { flows with commands, sockets := flows.sockets.set index (some arc) }
    | .removeSocket index :: commands =>
        match flows.sockets[index]? with
        | some (some _) =>
            w.setReceiver r { flows with commands, sockets := flows.sockets.set index none }
        | _ => w.setReceiver r { flows with commands, running := false }

/-- The thread receives a packet: the latency as `fetch_max` has it. -/
def packet (r : R) (index : Nat) (now timestamp : Clock) : HeartbeatWorld R :=
  if !(w.receivers r).running then w
  else match (w.receivers r).sockets[index]? with
    | some (some arc) =>
        let latency := max 0 (min (wrappedDiff now timestamp) (2 ^ 31 - 1))
        { w with
          latencies := Function.update w.latencies arc (max (w.latencies arc) latency)
          measured := w.measured ++ [⟨r, index, arc, latency⟩] }
    | _ => w

def step : HeartbeatEvent R → HeartbeatWorld R
  | .server (.heartbeat (some freqOffset) _) =>
      if !w.server.working then w
      else match w.subscriber with
        | some r => w.tell info freqOffset r
        | none => { w with server := w.server.sendHeartbeat info freqOffset none }
  | .server e => { w with server := w.server.step info e }
  | .subscribe r => { w with subscriber := r }
  | .addSocket r index => w.addSocket r index
  | .removeSocket r index => w.removeSocket r index
  | .handleCommand r => w.handleCommand r
  | .packet r index now timestamp => w.packet r index now timestamp
  | .stop r => w.setReceiver r { w.receivers r with running := false }

def run (w : HeartbeatWorld R) (events : List (HeartbeatEvent R)) : HeartbeatWorld R :=
  events.foldl (step info) w

/-- The latencies that were measured with a counter. -/
def measuredBy (arc : LatencyArc) : List Int :=
  (w.measured.filter (·.arc = arc)).map (·.latency)

end HeartbeatWorld

/-- The latency of a flow, if it is the one with this counter. -/
def latencyOf (arc : LatencyArc) (slot : Option LatencyArc × Int) : Option Int :=
  if slot.1 = some arc then some slot.2 else none

theorem latencyOf_self (arc : LatencyArc) (value : Int) :
    latencyOf arc (some arc, value) = some value := if_pos rfl

theorem latencyOf_ne {arc : LatencyArc} {o : Option LatencyArc} (h : o ≠ some arc) (value : Int) :
    latencyOf arc (o, value) = none := if_neg h

/-- What a heartbeat tells of a counter. -/
def Telling.of {R : Type} (arc : LatencyArc) (t : Telling R) : List Int :=
  (t.flows.zip t.values).filterMap (latencyOf arc)

/-- What all heartbeats tell of a counter. -/
def HeartbeatWorld.toldOf {R : Type} (arc : LatencyArc) (w : HeartbeatWorld R) : List Int :=
  w.told.flatMap (Telling.of arc)

/-! ## What is read -/

namespace InfoMcast

/-- The latencies in what was tried. -/
def Attempt.latencies (a : Attempt) : Option (List Int) :=
  if a.dst = heartbeatDestination then readLatencies a.content else none

/-- Heartbeats fit the buffer, and have the latencies that were told. -/
structure InfoServer.Tells (info : SelfInfo) (told : List (List Int)) (s : InfoServer) : Prop where
  numbered : s.Numbered info
  fits : ∀ a ∈ s.tried, a.dst = heartbeatDestination →
    a.content.length + Mcast.HEADER_LENGTH ≤ SEND_BUFFER_SIZE
  tried : s.tried.filterMap Attempt.latencies = told

namespace InfoServer

variable {info : SelfInfo} {s : InfoServer} {told : List (List Int)}

/-- What is read is what was told. -/
theorem Tells.readings (h : s.Tells info told) : latencyReadings s.sent = told := by
  have hread : latencyReadings s.sent = (s.sent.map fun d => (d.1, Mcast.View.new d.2)).filterMap
      fun d => if d.1 = heartbeatDestination then readLatencies d.2.content else none := by
    rw [List.filterMap_map]
    rfl
  have hattempt : ∀ a : Attempt × Nat, a.1 ∈ s.tried → (Attempt.received info a).bind (fun d =>
      if d.1 = heartbeatDestination then readLatencies d.2.content else none) =
        a.1.latencies := by
    intro a ha
    rw [Attempt.latencies]
    unfold Attempt.received
    by_cases hdst : a.1.dst = heartbeatDestination
    · rw [if_pos (h.fits a.1 ha hdst), if_pos hdst, Option.bind_some, if_pos hdst]
    · rw [if_neg hdst]
      split
      · rw [Option.bind_some, if_neg hdst]
      · rfl
  rw [hread, h.numbered.sent, List.filterMap_filterMap, ← h.tried]
  rw [show s.tried.filterMap Attempt.latencies =
      (s.tried.zipIdx.map Prod.fst).filterMap Attempt.latencies by simp, List.filterMap_map]
  refine List.filterMap_congr fun a ha => hattempt a ?_
  exact List.fst_mem_of_mem_zipIdx ha

theorem Tells.send (h : s.Tells info told) {a : Attempt} {values : List (List Int)}
    (hfits : a.dst = heartbeatDestination →
      a.content.length + Mcast.HEADER_LENGTH ≤ SEND_BUFFER_SIZE)
    (hvalues : [a].filterMap Attempt.latencies = values) :
    (s.send info a).Tells info (told ++ values) := by
  refine ⟨h.numbered.send a, fun a' ha' => ?_, ?_⟩
  · rw [(send_tried a).1] at ha'
    rcases List.mem_append.mp ha' with ha' | ha'
    · exact h.fits a' ha'
    · rw [List.mem_singleton.mp ha']
      exact hfits
  · rw [(send_tried a).1, List.filterMap_append, h.tried, hvalues]

/-- Messages to the other port tell nothing. -/
theorem Tells.sendAll (h : s.Tells info told) {attempts : List Attempt}
    (hdst : ∀ a ∈ attempts, a.dst = deviceInfoDestination) :
    (attempts.foldl (InfoServer.send info) s).Tells info told := by
  have hport : deviceInfoDestination ≠ heartbeatDestination := by decide
  induction attempts generalizing s with
  | nil => exact h
  | cons a attempts ih =>
      have ha := hdst a List.mem_cons_self
      have hnone : [a].filterMap Attempt.latencies = [] := by
        rw [List.filterMap_cons, Attempt.latencies, ha, if_neg hport]
        rfl
      have hsend := h.send (fun heq => absurd (ha.symm.trans heq) hport) hnone
      rw [List.append_nil] at hsend
      exact ih hsend fun a' ha' => hdst a' (List.mem_cons_of_mem _ ha')

theorem Tells.withCounters (h : s.Tells info told) (util latency : BitVec 16) :
    Tells info told { s with mcaster := { s.mcaster with
      utilBlockSeqnum := util, latencyBlockSeqnum := latency } } :=
  ⟨h.numbered.withCounters util latency, h.fits, h.tried⟩

theorem Tells.sendUtilization (h : s.Tells info told) (freqOffset : BitVec 32) :
    (s.sendUtilization info freqOffset).Tells info told := by
  have hnone : [heartbeatAttempt (utilizationBlocks s.mcaster.utilBlockSeqnum
      freqOffset)].filterMap Attempt.latencies = [] := by
    rw [List.filterMap_cons, Attempt.latencies, heartbeatAttempt, if_pos rfl,
      readLatencies_utilizationBlocks]
    rfl
  have hfits : (heartbeatAttempt (utilizationBlocks s.mcaster.utilBlockSeqnum
      freqOffset)).content.length + Mcast.HEADER_LENGTH ≤ SEND_BUFFER_SIZE :=
    (by decide : 52 + Mcast.HEADER_LENGTH ≤ SEND_BUFFER_SIZE)
  have hsend := (h.withCounters (s.mcaster.utilBlockSeqnum + 1) s.mcaster.latencyBlockSeqnum).send
    (fun _ => hfits) hnone
  rw [List.append_nil] at hsend
  exact hsend

theorem Tells.sendLatencies (h : s.Tells info told) {latencies : List Int}
    (hfew : latencies.length ≤ MAX_FLOWS) (hrange : ∀ x ∈ latencies, IsLatency x) :
    (s.sendLatencies info latencies).Tells info (told ++ [latencies]) := by
  have hfits : (heartbeatAttempt (latencyBlocks s.mcaster.latencyBlockSeqnum info.sampleRate
      latencies)).content.length + Mcast.HEADER_LENGTH ≤ SEND_BUFFER_SIZE := by
    have hlength := length_latencyBlocks s.mcaster.latencyBlockSeqnum info.sampleRate latencies
    unfold MAX_FLOWS at hfew
    unfold heartbeatAttempt Mcast.HEADER_LENGTH SEND_BUFFER_SIZE
    dsimp only
    omega
  have hvalues : [heartbeatAttempt (latencyBlocks s.mcaster.latencyBlockSeqnum info.sampleRate
      latencies)].filterMap Attempt.latencies = [latencies] := by
    rw [List.filterMap_cons, Attempt.latencies, heartbeatAttempt, if_pos rfl,
      readLatencies_latencyBlocks _ _ hfew hrange]
    rfl
  exact (h.withCounters s.mcaster.utilBlockSeqnum (s.mcaster.latencyBlockSeqnum + 1)).send
    (fun _ => hfits) hvalues

/-- Only a heartbeat with a clock may tell something. -/
theorem Tells.step (h : s.Tells info told) {e : InfoEvent}
    (hnot : ∀ freqOffset latencies, e ≠ .heartbeat (some freqOffset) latencies) :
    (s.step info e).Tells info told := by
  have hstopped : Tells info told { s with working := false } :=
    ⟨h.numbered.stopped, h.fits, h.tried⟩
  unfold InfoServer.step
  split
  · exact h
  cases e with
  | request packet freqOffset files =>
      dsimp only
      split
      · exact h
      · split
        · next attempts hanswer => exact h.sendAll (answer_dst hanswer)
        · exact hstopped
  | message startCode opcode content =>
      exact @sendAll _ _ _ h [⟨deviceInfoDestination, startCode, opcode, content⟩]
        fun a ha => by rw [List.mem_singleton.mp ha]
  | heartbeat freqOffset latencies =>
      cases freqOffset with
      | none => exact h
      | some freqOffset => exact absurd rfl (hnot freqOffset latencies)
  | closed => exact hstopped

theorem start_tells (info : SelfInfo) : (start info).Tells info [] := by
  have hnew : (new.Tells info []) := ⟨⟨List.length_replicate, rfl, rfl⟩,
    fun a ha => absurd ha List.not_mem_nil, rfl⟩
  have hdst : ∀ a ∈ [boardInfoAttempt info, productInfoAttempt info],
      a.dst = deviceInfoDestination := by
    simp [boardInfoAttempt, productInfoAttempt, toDeviceInfo]
  have hsent := hnew.sendAll hdst
  rwa [List.foldl_cons, List.foldl_cons, List.foldl_nil] at hsent

end InfoServer

end InfoMcast

/-! ## Whose counters they are -/

namespace HeartbeatWorld

variable {R : Type} {info : SelfInfo} {w : HeartbeatWorld R}

/-- A counter is the one of a flow at a place of a receiver, wherever it is. -/
structure Owned (w : HeartbeatWorld R) : Prop where
  flows : ∀ r i arc, (w.receivers r).flowsInfo[i]? = some (some arc) → w.owner arc = some (r, i)
  commands : ∀ r i arc, .addSocket i arc ∈ (w.receivers r).commands → w.owner arc = some (r, i)
  sockets : ∀ r i arc, (w.receivers r).sockets[i]? = some (some arc) → w.owner arc = some (r, i)
  measured : ∀ m ∈ w.measured, w.owner m.arc = some (m.receiver, m.index)
  told : ∀ t ∈ w.told, ∀ i arc, t.flows[i]? = some (some arc) → w.owner arc = some (t.receiver, i)
  fresh : ∀ arc, w.nextArc ≤ arc → w.owner arc = none

/-- The flows of a receiver keep to their owners. -/
structure FlowsOwned (owner : LatencyArc → Option (R × Nat)) (r : R) (counted : CountedFlows) :
    Prop where
  flows : ∀ (i : Nat) arc, counted.flowsInfo[i]? = some (some arc) → owner arc = some (r, i)
  commands : ∀ i arc, .addSocket i arc ∈ counted.commands → owner arc = some (r, i)
  sockets : ∀ (i : Nat) arc, counted.sockets[i]? = some (some arc) → owner arc = some (r, i)

theorem Owned.receiver (h : w.Owned) (r : R) : FlowsOwned w.owner r (w.receivers r) :=
  ⟨h.flows r, h.commands r, h.sockets r⟩

theorem getElem?_set_some {α : Type} {l : List (Option α)} {i j : Nat} {a : Option α} {b : α}
    (h : (l.set i a)[j]? = some (some b)) : j = i ∧ a = some b ∨ l[j]? = some (some b) := by
  rw [List.getElem?_set] at h
  split at h
  · next hij =>
      split at h
      · exact Or.inl ⟨hij.symm, Option.some.inj h⟩
      · cases h
  · exact Or.inr h

/-- A new counter changes no owner. -/
theorem Owned.newArc (h : w.Owned) (r : R) (i : Nat) :
    ({ w with
      latencies := Function.update w.latencies w.nextArc 0
      nextArc := w.nextArc + 1
      owner := Function.update w.owner w.nextArc (some (r, i)) } : HeartbeatWorld R).Owned := by
  have hkept : ∀ arc x, w.owner arc = some x →
      Function.update w.owner w.nextArc (some (r, i)) arc = some x := by
    intro arc x hx
    rw [Function.update_of_ne, hx]
    rintro rfl
    rw [h.fresh _ (Nat.le_refl _)] at hx
    cases hx
  refine ⟨fun r i arc hf => hkept _ _ (h.flows r i arc hf),
    fun r i arc hc => hkept _ _ (h.commands r i arc hc),
    fun r i arc hs => hkept _ _ (h.sockets r i arc hs), fun m hm => hkept _ _ (h.measured m hm),
    fun t ht i arc hf => hkept _ _ (h.told t ht i arc hf), fun arc harc => ?_⟩
  dsimp only at harc ⊢
  rw [Function.update_of_ne (Nat.ne_of_gt harc)]
  exact h.fresh arc (Nat.le_of_succ_le harc)

variable [DecidableEq R]

theorem Owned.setReceiver (h : w.Owned) {r : R} {flows : CountedFlows}
    (hflows : FlowsOwned w.owner r flows) : (w.setReceiver r flows).Owned := by
  have hother : ∀ r', FlowsOwned w.owner r' ((w.setReceiver r flows).receivers r') := by
    intro r'
    rw [HeartbeatWorld.setReceiver]
    dsimp only
    by_cases hr : r' = r
    · subst hr
      rwa [Function.update_self]
    · rw [Function.update_of_ne hr]
      exact h.receiver r'
  exact ⟨fun r' => (hother r').flows, fun r' => (hother r').commands,
    fun r' => (hother r').sockets, h.measured, h.told, h.fresh⟩

theorem Owned.addSocket (h : w.Owned) (r : R) (index : Nat) : (w.addSocket r index).Owned := by
  unfold HeartbeatWorld.addSocket
  dsimp only
  split
  swap
  · exact h
  have hnew := h.newArc r index
  have hself : Function.update w.owner w.nextArc (some (r, index)) w.nextArc = some (r, index) :=
    Function.update_self _ _ _
  refine hnew.setReceiver ⟨fun i arc hf => ?_, fun i arc hc => ?_, hnew.sockets r⟩
  · rcases getElem?_set_some hf with ⟨rfl, heq⟩ | hold
    · rw [← Option.some.inj heq]
      exact hself
    · exact hnew.flows r i arc hold
  · rcases List.mem_append.mp hc with hold | hlast
    · exact hnew.commands r i arc hold
    · cases List.mem_singleton.mp hlast
      exact hself

theorem Owned.removeSocket (h : w.Owned) (r : R) (index : Nat) : (w.removeSocket r index).Owned := by
  unfold HeartbeatWorld.removeSocket
  dsimp only
  split
  swap
  · exact h
  refine h.setReceiver ⟨fun i arc hf => ?_, fun i arc hc => ?_, h.sockets r⟩
  · rcases getElem?_set_some hf with ⟨_, hnone⟩ | hold
    · cases hnone
    · exact h.flows r i arc hold
  · rcases List.mem_append.mp hc with hold | hlast
    · exact h.commands r i arc hold
    · cases List.mem_singleton.mp hlast

theorem Owned.handleCommand (h : w.Owned) (r : R) : (w.handleCommand r).Owned := by
  unfold HeartbeatWorld.handleCommand
  dsimp only
  split
  · exact h
  split
  · exact h
  · next index arc commands hcommands =>
      have hmem : ∀ c ∈ commands, c ∈ (w.receivers r).commands := fun c hc => by
        rw [hcommands]
        exact List.mem_cons_of_mem _ hc
      refine h.setReceiver ⟨h.flows r, fun i a hc => h.commands r i a (hmem _ hc), fun i a hs => ?_⟩
      rcases getElem?_set_some hs with ⟨rfl, heq⟩ | hold
      · rw [← Option.some.inj heq]
        exact h.commands r i arc (by rw [hcommands]; exact List.mem_cons_self)
      · exact h.sockets r i a hold
  · next index commands hcommands =>
      have hmem : ∀ c ∈ commands, c ∈ (w.receivers r).commands := fun c hc => by
        rw [hcommands]
        exact List.mem_cons_of_mem _ hc
      split
      · refine h.setReceiver ⟨h.flows r, fun i a hc => h.commands r i a (hmem _ hc),
          fun i a hs => ?_⟩
        rcases getElem?_set_some hs with ⟨_, hnone⟩ | hold
        · cases hnone
        · exact h.sockets r i a hold
      · exact h.setReceiver ⟨h.flows r, fun i a hc => h.commands r i a (hmem _ hc), h.sockets r⟩

omit [DecidableEq R] in
theorem Owned.packet (h : w.Owned) (r : R) (index : Nat) (now timestamp : Clock) :
    (w.packet r index now timestamp).Owned := by
  unfold HeartbeatWorld.packet
  split
  · exact h
  split
  · next arc hsocket =>
      refine ⟨h.flows, h.commands, h.sockets, fun m hm => ?_, h.told, h.fresh⟩
      rcases List.mem_append.mp hm with hm | hm
      · exact h.measured m hm
      · rw [List.mem_singleton.mp hm]
        exact h.sockets r index arc hsocket
  · exact h

omit [DecidableEq R] in
theorem Owned.tell (h : w.Owned) (freqOffset : BitVec 32) (r : R) :
    (w.tell info freqOffset r).Owned := by
  refine ⟨h.flows, h.commands, h.sockets, h.measured, fun t ht => ?_, h.fresh⟩
  rcases List.mem_append.mp ht with ht | ht
  · exact h.told t ht
  · rw [List.mem_singleton.mp ht]
    exact h.flows r

theorem Owned.step (h : w.Owned) (e : HeartbeatEvent R) : (w.step info e).Owned := by
  have hsame : ∀ server, ({ w with server := server } : HeartbeatWorld R).Owned := fun _ =>
    ⟨h.flows, h.commands, h.sockets, h.measured, h.told, h.fresh⟩
  unfold HeartbeatWorld.step
  split
  · split
    · exact h
    · split
      · exact h.tell _ _
      · exact hsame _
  · exact hsame _
  · exact ⟨h.flows, h.commands, h.sockets, h.measured, h.told, h.fresh⟩
  · exact h.addSocket _ _
  · exact h.removeSocket _ _
  · exact h.handleCommand _
  · exact h.packet _ _ _ _
  · exact h.setReceiver ⟨h.flows _, h.commands _, h.sockets _⟩

/-! ## What they account for -/

omit [DecidableEq R] in
/-- A counter that nobody has counts nothing. -/
theorem Owned.unused (h : w.Owned) {arc : LatencyArc} (hnone : w.owner arc = none) :
    w.measuredBy arc = [] ∧ w.toldOf arc = [] := by
  constructor
  · rw [measuredBy, List.map_eq_nil_iff, List.filter_eq_nil_iff]
    intro m hm harc
    rw [decide_eq_true_iff] at harc
    have howner := h.measured m hm
    rw [harc, hnone] at howner
    cases howner
  · rw [toldOf, List.flatMap_eq_nil_iff]
    intro t ht
    rw [Telling.of, List.filterMap_eq_nil_iff]
    rintro ⟨o, v⟩ hslot
    refine latencyOf_ne (fun heq => ?_) v
    obtain ⟨i, hi⟩ := List.mem_iff_getElem?.mp hslot
    rw [List.getElem?_zip_eq_some] at hi
    dsimp only at heq hi
    rw [heq] at hi
    have howner := h.told t ht i arc hi.1
    rw [hnone] at howner
    cases howner

/-- The counters of the flows are taken in turn. -/
theorem swapLatencies_spec (flows : List (Option LatencyArc)) {latencies : LatencyArc → Int}
    (hrange : ∀ arc, IsLatency (latencies arc)) :
    (swapLatencies flows latencies).1.length = flows.length ∧
      (∀ x ∈ (swapLatencies flows latencies).1, IsLatency x) ∧
      (∀ arc, IsLatency ((swapLatencies flows latencies).2 arc)) ∧
      ∀ arc puts takes, Accounts 0 (latencies arc) puts takes →
        Accounts 0 ((swapLatencies flows latencies).2 arc) puts (takes ++
          (flows.zip (swapLatencies flows latencies).1).filterMap (latencyOf arc)) := by
  have hzero : IsLatency 0 := ⟨Int.le_refl _, by decide⟩
  induction flows generalizing latencies with
  | nil => exact ⟨rfl, fun x hx => absurd hx List.not_mem_nil, hrange, fun arc puts takes h => by
      rw [List.zip_nil_left, List.filterMap_nil, List.append_nil]
      exact h⟩
  | cons o flows ih =>
      cases o with
      | none =>
          obtain ⟨hlen, hvalues, hlatencies, haccounts⟩ := ih hrange
          rw [swapLatencies]
          dsimp only
          refine ⟨congrArg Nat.succ hlen, fun x hx => ?_, hlatencies, fun arc puts takes h => ?_⟩
          · rcases List.mem_cons.mp hx with rfl | hx
            · exact hzero
            · exact hvalues x hx
          · rw [List.zip_cons_cons, List.filterMap_cons_none (latencyOf_ne (fun heq => by cases heq) 0)]
            exact haccounts arc puts takes h
      | some taken =>
          have hswapped : ∀ arc, IsLatency (Function.update latencies taken 0 arc) := by
            intro arc
            by_cases harc : arc = taken
            · rw [harc, Function.update_self]
              exact hzero
            · rw [Function.update_of_ne harc]
              exact hrange arc
          obtain ⟨hlen, hvalues, hlatencies, haccounts⟩ := ih hswapped
          rw [swapLatencies]
          dsimp only
          refine ⟨congrArg Nat.succ hlen, fun x hx => ?_, hlatencies, fun arc puts takes h => ?_⟩
          · rcases List.mem_cons.mp hx with rfl | hx
            · exact hrange taken
            · exact hvalues x hx
          · rw [List.zip_cons_cons]
            by_cases harc : taken = arc
            · subst harc
              have htaken := haccounts taken puts (takes ++ [latencies taken]) <| by
                rw [Function.update_self]
                exact h.take
              rw [List.filterMap_cons_some (latencyOf_self taken _)]
              rwa [List.append_assoc] at htaken
            · rw [List.filterMap_cons_none (latencyOf_ne (fun heq => harc (Option.some.inj heq)) _)]
              refine haccounts arc puts takes ?_
              rwa [Function.update_of_ne (Ne.symm harc)]

/-- What is told is what was measured. -/
structure Accounted (info : SelfInfo) (w : HeartbeatWorld R) : Prop where
  tells : w.server.Tells info (w.told.map Telling.values)
  slots : ∀ r, (w.receivers r).flowsInfo.length = MAX_FLOWS
  range : ∀ arc, IsLatency (w.latencies arc)
  once : ∀ arc, Accounts 0 (w.latencies arc) (w.measuredBy arc) (w.toldOf arc)
  owned : w.Owned

theorem slots_setReceiver (h : ∀ r, (w.receivers r).flowsInfo.length = MAX_FLOWS) {r : R}
    {flows : CountedFlows} (hlength : flows.flowsInfo.length = MAX_FLOWS) (r' : R) :
    ((w.setReceiver r flows).receivers r').flowsInfo.length = MAX_FLOWS := by
  rw [HeartbeatWorld.setReceiver]
  dsimp only
  by_cases hr : r' = r
  · subst hr
    rwa [Function.update_self]
  · rw [Function.update_of_ne hr]
    exact h r'

theorem Accounted.setReceiver (h : w.Accounted info) {r : R} {flows : CountedFlows}
    (hlength : flows.flowsInfo.length = MAX_FLOWS) (howned : (w.setReceiver r flows).Owned) :
    (w.setReceiver r flows).Accounted info :=
  ⟨h.tells, slots_setReceiver h.slots hlength, h.range, h.once, howned⟩

omit [DecidableEq R] in
theorem Accounted.tell (h : w.Accounted info) (freqOffset : BitVec 32) (r : R) :
    (w.tell info freqOffset r).Accounted info := by
  obtain ⟨hlen, hvalues, hlatencies, haccounts⟩ :=
    swapLatencies_spec (w.receivers r).flowsInfo h.range
  refine ⟨?_, h.slots, hlatencies, fun arc => ?_, h.owned.tell freqOffset r⟩
  · have hfew := hlen.trans (h.slots r)
    have htells := (h.tells.sendUtilization freqOffset).sendLatencies hfew.le hvalues
    rw [HeartbeatWorld.tell]
    dsimp only
    rw [List.map_append]
    exact htells
  · have htaken := haccounts arc _ _ (h.once arc)
    rw [toldOf, HeartbeatWorld.tell]
    dsimp only
    rw [List.flatMap_append, List.flatMap_singleton]
    exact htaken

theorem Accounted.addSocket (h : w.Accounted info) (r : R) (index : Nat) :
    (w.addSocket r index).Accounted info := by
  have howned := h.owned.addSocket r index
  unfold HeartbeatWorld.addSocket at howned ⊢
  dsimp only at howned ⊢
  split
  swap
  · exact h
  next hindex =>
  rw [if_pos hindex] at howned
  have hlength : ((w.receivers r).flowsInfo.set index (some w.nextArc)).length = MAX_FLOWS := by
    rw [List.length_set, h.slots r]
  refine ⟨h.tells, slots_setReceiver h.slots hlength, fun arc => ?_, fun arc => ?_, howned⟩
  · dsimp only
    by_cases harc : arc = w.nextArc
    · rw [harc, Function.update_self]
      exact ⟨Int.le_refl _, by decide⟩
    · rw [Function.update_of_ne harc]
      exact h.range arc
  · dsimp only
    by_cases harc : arc = w.nextArc
    · subst harc
      obtain ⟨hmeasured, htold⟩ := h.owned.unused (h.owned.fresh _ (Nat.le_refl _))
      rw [Function.update_self]
      change Accounts 0 0 (w.measuredBy w.nextArc) (w.toldOf w.nextArc)
      rw [hmeasured, htold]
      exact .start 0
    · rw [Function.update_of_ne harc]
      exact h.once arc

/-- The thread changes no entry of the flows. -/
theorem handleCommand_cases (w : HeartbeatWorld R) (r : R) : w.handleCommand r = w ∨
    ∃ flows : CountedFlows, w.handleCommand r = w.setReceiver r flows ∧
      flows.flowsInfo = (w.receivers r).flowsInfo := by
  unfold HeartbeatWorld.handleCommand
  dsimp only
  split
  · exact Or.inl rfl
  split
  · exact Or.inl rfl
  · exact Or.inr ⟨_, rfl, rfl⟩
  · split
    · exact Or.inr ⟨_, rfl, rfl⟩
    · exact Or.inr ⟨_, rfl, rfl⟩

theorem Accounted.handleCommand (h : w.Accounted info) (r : R) :
    (w.handleCommand r).Accounted info := by
  have howned := h.owned.handleCommand r
  rcases handleCommand_cases w r with heq | ⟨flows, heq, hflows⟩
  · rw [heq]
    exact h
  · rw [heq] at howned ⊢
    exact h.setReceiver (hflows ▸ h.slots r) howned

omit [DecidableEq R] in
theorem Accounted.packet (h : w.Accounted info) (r : R) (index : Nat) (now timestamp : Clock) :
    (w.packet r index now timestamp).Accounted info := by
  have howned := h.owned.packet r index now timestamp
  unfold HeartbeatWorld.packet at howned ⊢
  split
  · exact h
  next hrunning =>
  rw [if_neg hrunning] at howned
  split
  swap
  · exact h
  next arc hsocket =>
  simp only [hsocket] at howned
  have hlow : 0 ≤ max 0 (min (wrappedDiff now timestamp) (2 ^ 31 - 1)) := le_max_left _ _
  have hhigh : max 0 (min (wrappedDiff now timestamp) (2 ^ 31 - 1)) ≤ 2 ^ 31 - 1 :=
    max_le (by decide) (min_le_right _ _)
  refine ⟨h.tells, h.slots, fun arc' => ?_, fun arc' => ?_, howned⟩
  · dsimp only
    by_cases harc : arc' = arc
    · rw [harc, Function.update_self]
      exact ⟨hlow.trans (le_max_right _ _), max_le (h.range arc).2 hhigh⟩
    · rw [Function.update_of_ne harc]
      exact h.range arc'
  · rw [measuredBy]
    dsimp only
    rw [List.filter_append, List.map_append]
    by_cases harc : arc' = arc
    · subst harc
      rw [Function.update_self, List.filter_cons_of_pos (by simp)]
      exact (h.once arc').put _
    · rw [Function.update_of_ne harc, List.filter_cons_of_neg (by simpa using Ne.symm harc),
        List.filter_nil, List.map_nil, List.append_nil]
      exact h.once arc'

theorem Accounted.step (h : w.Accounted info) (e : HeartbeatEvent R) :
    (w.step info e).Accounted info := by
  have howned := @Owned.step R info w _ h.owned e
  have hserver : ∀ {server : InfoServer}, server.Tells info (w.told.map Telling.values) →
      ({ w with server := server } : HeartbeatWorld R).Accounted info := fun htells =>
    ⟨htells, h.slots, h.range, h.once, h.owned.flows, h.owned.commands, h.owned.sockets,
      h.owned.measured, h.owned.told, h.owned.fresh⟩
  unfold HeartbeatWorld.step at howned ⊢
  split
  · split
    · exact h
    · split
      · exact h.tell _ _
      · exact hserver (h.tells.sendUtilization _)
  · next e hnot => exact hserver (h.tells.step fun f l heq => hnot f l heq)
  · exact ⟨h.tells, h.slots, h.range, h.once, howned⟩
  · exact h.addSocket _ _
  · unfold HeartbeatWorld.removeSocket at howned ⊢
    dsimp only at howned ⊢
    split
    · next hindex =>
        rw [if_pos hindex] at howned
        exact h.setReceiver (by rw [List.length_set, h.slots]) howned
    · exact h
  · exact h.handleCommand _
  · exact h.packet _ _ _ _
  · exact h.setReceiver (h.slots _) howned

theorem accounted_run (info : SelfInfo) (events : List (HeartbeatEvent R)) :
    ((start info).run info events).Accounted info := by
  have hnone : ∀ (i : Nat) arc, (List.replicate MAX_FLOWS (none : Option LatencyArc))[i]? ≠
      some (some arc) := by
    intro i arc h
    cases List.eq_of_mem_replicate (List.mem_of_getElem? h)
  have howned : (start info : HeartbeatWorld R).Owned :=
    ⟨fun _ i arc h => absurd h (hnone i arc), fun _ _ _ h => absurd h List.not_mem_nil,
      fun _ i arc h => absurd h (hnone i arc), fun _ h => absurd h List.not_mem_nil,
      fun _ h => absurd h List.not_mem_nil, fun _ _ => rfl⟩
  have honce : ∀ arc, Accounts 0 ((start info : HeartbeatWorld R).latencies arc)
      ((start info : HeartbeatWorld R).measuredBy arc)
        ((start info : HeartbeatWorld R).toldOf arc) := by
    intro arc
    obtain ⟨hmeasured, htold⟩ := @Owned.unused R _ howned arc rfl
    rw [hmeasured, htold]
    exact .start 0
  have hstart : (start info : HeartbeatWorld R).Accounted info := by
    refine ⟨?_, fun _ => List.length_replicate, fun _ => ?_, honce, howned⟩
    · have hserver := InfoServer.start_tells info
      dsimp only [start, List.map_nil]
      exact hserver
    · dsimp only [start]
      exact ⟨Int.le_refl _, by decide⟩
  suffices ∀ w : HeartbeatWorld R, w.Accounted info → (w.run info events).Accounted info from
    this _ hstart
  induction events with
  | nil => exact fun _ h => h
  | cons e events ih => exact fun _ h => ih _ (h.step e)

end HeartbeatWorld

/-- Whatever happens, the latencies that a listener reads are those that were told. Of each
counter, the latencies that were measured fall into groups, of which each heartbeat with
its flow tells the greatest; and whatever is measured with a counter or told of it is of the
flow at one place of one receiver. -/
theorem latencies_told_once {R : Type} [DecidableEq R] (info : SelfInfo)
    (events : List (HeartbeatEvent R)) :
    latencyReadings ((HeartbeatWorld.start info).run info events).server.sent =
        ((HeartbeatWorld.start info).run info events).told.map Telling.values ∧
      ∀ arc, (∃ (groups : List (List Int)) (rest : List Int),
          ((HeartbeatWorld.start info).run info events).measuredBy arc =
              groups.flatten ++ rest ∧
            ((HeartbeatWorld.start info).run info events).toldOf arc = groups.map (peak 0)) ∧
        ∃ owner : Option (R × Nat),
          (∀ m ∈ ((HeartbeatWorld.start info).run info events).measured,
            m.arc = arc → owner = some (m.receiver, m.index)) ∧
          ∀ t ∈ ((HeartbeatWorld.start info).run info events).told, ∀ i : Nat,
            t.flows[i]? = some (some arc) → owner = some (t.receiver, i) := by
  have haccounted := @HeartbeatWorld.accounted_run R _ info events
  refine ⟨haccounted.tells.readings, fun arc => ⟨?_, _, fun m hm harc => ?_, fun t ht i =>
    haccounted.owned.told t ht i arc⟩⟩
  · obtain ⟨groups, rest, hmeasured, htold, _⟩ := haccounted.once arc
    exact ⟨groups, rest, hmeasured, htold⟩
  · exact harc ▸ haccounted.owned.measured m hm

end Inferno
