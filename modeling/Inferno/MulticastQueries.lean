import Inferno.MulticastReservation

/-!
# Queries for addresses

What holds on the network in every careful run: the bundles of each device survive
(`Devices.step`); a query is for the address its task is after, whoever had reserved it
when handling the query has answered, and what was received for it and did not end the
check was no answer (`Networked.step`).
-/

namespace Inferno

/-- The check is the one after the reservation. -/
def Checking.IsSecond : Checking → Prop
  | .asking second _ => second = true
  | .waiting second _ _ => second = true
  | .checked used₁ _ => used₁ = some false

theorem TransmitMulticasts.pursues_of_taskAt {w : TransmitMulticasts} {c : Cell} {task : GraceTask}
    (h : w.taskAt c = some task) : w.Pursues c task.dstAddr := by
  have hcell := List.find?_some h
  rw [decide_eq_true_iff] at hcell
  exact ⟨task, List.mem_of_find?_eq_some h, hcell, rfl⟩

/-! ## Which addresses are reserved -/

theorem reservationOf_injective {info : SelfInfo} {a b : BitVec 32}
    (h : reservationOf info a = reservationOf info b) : a = b :=
  addrName_injective (congrArg Service.serviceId h)

/-- An announced service is of another type. -/
theorem serviceType_ne {st : String} {t : DnsName} (h : serviceType st = some t) :
    t ≠ inAddrName := by
  rintro rfl
  have hthree : inAddrName.labels.length ≠ 3 := by decide
  exact hthree (congrArg List.length (DnsName.fromLabels_labels h))

theorem mem_removeMulticastIp {services : List Service} {info : SelfInfo} {a b : BitVec 32} :
    reservationOf info b ∈ removeMulticastIp services a ↔
      reservationOf info b ∈ services ∧ b ≠ a := by
  have hname : (decide ((reservationOf info b).serviceName ≠ ipName a) ||
      decide ((reservationOf info b).serviceType ≠ inAddrName)) = true ↔ b ≠ a := by
    rw [Bool.or_eq_true, decide_eq_true_iff, decide_eq_true_iff]
    exact ⟨fun h heq => h.elim (fun hne => hne (heq ▸ rfl)) fun hne => hne rfl,
      fun hne => Or.inl fun heq => hne (ipName_injective heq)⟩
  rw [removeMulticastIp, inAddrType_eq, multicastIpToName_eq]
  dsimp only
  rw [Broadcaster.removeNamedService, List.mem_filter, hname]

theorem mem_addService {services : List Service} {info info' : SelfInfo} {ann : Announcement}
    {s : Service} (hs : info.service ann = some s) {a : BitVec 32} :
    reservationOf info' a ∈ Broadcaster.addService services s ↔
      reservationOf info' a ∈ services := by
  have hne : reservationOf info' a ≠ s := by
    rintro rfl
    exact serviceType_ne (SelfInfo.service_fields hs).1 rfl
  unfold Broadcaster.addService
  split
  · rw [List.mem_cons, List.mem_filter, decide_eq_true_iff]
    exact ⟨fun h => (h.resolve_left hne).1, fun h => Or.inr ⟨h, hne⟩⟩
  · exact Iff.rfl

theorem mem_withdrawService {services : List Service} {info info' : SelfInfo}
    {ann : Announcement} {a : BitVec 32} :
    reservationOf info' a ∈ info.withdrawService services ann ↔
      reservationOf info' a ∈ services := by
  unfold SelfInfo.withdrawService
  split
  · next t name ht _ =>
      rw [Broadcaster.removeNamedService, List.mem_filter, Bool.or_eq_true]
      refine ⟨fun h => h.1, fun h => ⟨h, Or.inr ?_⟩⟩
      rw [decide_eq_true_iff]
      exact fun heq => serviceType_ne ht heq.symm
  · exact Iff.rfl

namespace ReservationWorld

section

variable {D : Type} [DecidableEq D] (host : D → SelfInfo) (w : ReservationWorld D)

/-! ## Runs that go well -/

/-- A step under which the bundles of the device survive. -/
def CarefulStep : ReservationEvent D → Prop
  | .own d e => (w.multicasts d).Careful (host d).multicastDevice e
  | .complete d k draw => ∀ task used₁ used₂, (w.multicasts d).tasks[k]? = some task →
      w.checks d task.dstAddrArc = .checked used₁ used₂ →
        (w.multicasts d).Careful (host d).multicastDevice (.grace k used₁ used₂ draw)
  | _ => True

/-- A query reached every other device, and whatever that answered was received for it. -/
def GotThrough (d : D) (query : Nat) : Prop :=
  ∀ e, e ≠ d → ∃ h ∈ w.handled, h.responder = e ∧ h.packet = query ∧
    ∀ j ∈ h.replies, (query, j) ∈ w.taken

/-- A second check is not given up before one of its queries got through. -/
def HeardStep : ReservationEvent D → Prop
  | .giveUp d c => ∀ tried query, w.checks d c = .waiting true tried query → 2 ≤ tried.length →
      ∃ q ∈ tried ++ [query], w.GotThrough d q
  | _ => True

def SoundRun : ReservationWorld D → List (ReservationEvent D) → Prop
  | _, [] => True
  | w, e :: events => CarefulStep host w e ∧ HeardStep w e ∧ SoundRun (w.step host e) events

/-! ## What holds on the network -/

/-- The queries of a check are for the address its task is after; whoever had it reserved
when handling one has answered; and what was received without ending the check was no
answer. -/
structure Networked : Prop where
  asked : ∀ d c a, (w.multicasts d).Pursues c a → ∀ q ∈ (w.checks d c).queries,
    ∃ p, w.sent[q]? = some p ∧ p.origin = .check d c ∧
      p.message = queryPacket [.a] (addrName a)
  answered : ∀ h ∈ w.handled, ∃ p, w.sent[h.packet]? = some p ∧
    ∀ a, p.message = queryPacket [.a] (addrName a) →
      reservationOf (host h.responder) a ∈ h.services →
        ∃ j ∈ h.replies, w.sent[j]? = some ⟨.services h.responder,
          (host h.responder).ipAddress, reservationResponse (host h.responder) a⟩
  refused : ∀ d c a, (w.multicasts d).Pursues c a → ∀ q ∈ (w.checks d c).queries, ∀ j,
    (q, j) ∈ w.taken → ∃ p, w.sent[j]? = some p ∧
      (MdnsClient.new (host d)).accepts (addrName a) p.ip p.message = false
  old : ∀ x ∈ w.taken, x.1 < w.sent.length

/-- The bundles of each device survive, and only tasks have begun to check. -/
structure Devices : Prop where
  bundles : ∀ d, ∃ t, TransmitMulticasts.BundleInv (host d).multicastDevice (w.multicasts d) t
  ported : ∀ d, (w.multicasts d).Ported
  unasked : ∀ d c, (∀ a, ¬(w.multicasts d).Pursues c a) → w.checks d c = .asking false []

end

section

variable {D : Type} {host : D → SelfInfo} {w : ReservationWorld D}

theorem getElem?_append_of_some {α : Type} {l more : List α} {i : Nat} {a : α}
    (h : l[i]? = some a) : (l ++ more)[i]? = some a := by
  rw [List.getElem?_append_left (List.getElem?_eq_some_iff.mp h).1, h]

/-- More may be sent, and checks may forget queries. -/
theorem Networked.mono (hn : w.Networked host) {u : ReservationWorld D}
    {more : List (MdnsPacket D)} (hsent : u.sent = w.sent ++ more)
    (hhandled : u.handled = w.handled) (htaken : u.taken = w.taken)
    (hqueries : ∀ d c a, (u.multicasts d).Pursues c a → ∀ q ∈ (u.checks d c).queries,
      (w.multicasts d).Pursues c a ∧ q ∈ (w.checks d c).queries) : u.Networked host := by
  obtain ⟨h1, h2, h3, h4⟩ := hn
  refine ⟨fun d c a hp q hq => ?_, fun h hh => ?_, fun d c a hp q hq j hj => ?_, fun x hx => ?_⟩
  · obtain ⟨hp, hq⟩ := hqueries d c a hp q hq
    obtain ⟨p, hget, hrest⟩ := h1 d c a hp q hq
    exact ⟨p, by rw [hsent]; exact getElem?_append_of_some hget, hrest⟩
  · obtain ⟨p, hget, hrest⟩ := h2 h (hhandled ▸ hh)
    refine ⟨p, by rw [hsent]; exact getElem?_append_of_some hget, fun a hm hs => ?_⟩
    obtain ⟨j, hj, hget'⟩ := hrest a hm hs
    exact ⟨j, hj, by rw [hsent]; exact getElem?_append_of_some hget'⟩
  · obtain ⟨hp, hq⟩ := hqueries d c a hp q hq
    obtain ⟨p, hget, hrest⟩ := h3 d c a hp q hq j (htaken ▸ hj)
    exact ⟨p, by rw [hsent]; exact getElem?_append_of_some hget, hrest⟩
  · rw [hsent, List.length_append]
    exact Nat.lt_add_right _ (h4 x (htaken ▸ hx))

theorem Devices.congr (hd : w.Devices host) {u : ReservationWorld D}
    (hmulticasts : u.multicasts = w.multicasts) (hchecks : u.checks = w.checks) :
    u.Devices host := by
  obtain ⟨h1, h2, h3⟩ := hd
  exact ⟨fun d => hmulticasts ▸ h1 d, fun d => hmulticasts ▸ h2 d,
    fun d c => by rw [hmulticasts, hchecks]; exact h3 d c⟩

variable [DecidableEq D]

theorem mem_reserve {d e : D} {a b : BitVec 32} :
    reservationOf (host e) b ∈ (w.reserve host d a).services e ↔
      reservationOf (host e) b ∈ w.services e ∨ e = d ∧ b = a := by
  rw [reserve_eq]
  dsimp only
  by_cases hed : e = d
  · subst hed
    rw [Function.update_self, List.mem_cons, List.mem_filter, decide_eq_true_iff]
    constructor
    · rintro (heq | ⟨hmem, _⟩)
      · exact Or.inr ⟨rfl, reservationOf_injective heq⟩
      · exact Or.inl hmem
    · rintro (hmem | ⟨_, rfl⟩)
      · by_cases heq : reservationOf (host e) b = reservationOf (host e) a
        · exact Or.inl heq
        · exact Or.inr ⟨hmem, heq⟩
      · exact Or.inl rfl
  · rw [Function.update_of_ne hed]
    exact ⟨Or.inl, fun h => h.resolve_right fun hd => hed hd.1⟩

theorem setMulticasts_self (d : D) (m : TransmitMulticasts) :
    (w.setMulticasts d m).multicasts d = m := Function.update_self _ _ _

theorem setMulticasts_of_ne {d e : D} (h : e ≠ d) (m : TransmitMulticasts) :
    (w.setMulticasts d m).multicasts e = w.multicasts e := Function.update_of_ne h _ _

theorem setCheck_self (d : D) (c : Cell) (check : Checking) :
    (w.setCheck d c check).checks d c = check := by
  rw [setCheck]
  dsimp only
  rw [Function.update_self, Function.update_self]

theorem setCheck_of_ne {d e : D} {c c' : Cell} (h : (e, c') ≠ (d, c)) (check : Checking) :
    (w.setCheck d c check).checks e c' = w.checks e c' := by
  rw [setCheck]
  dsimp only
  by_cases hed : e = d
  · subst hed
    rw [Function.update_self, Function.update_of_ne fun heq => h (by rw [heq])]
  · rw [Function.update_of_ne hed]

/-! ## The bundles of the devices -/

/-- A check of a pursued cell may change. -/
theorem Devices.setCheck (hd : w.Devices host) {d : D} {c : Cell} {a : BitVec 32}
    (hp : (w.multicasts d).Pursues c a) (check : Checking) : (w.setCheck d c check).Devices host := by
  refine ⟨hd.bundles, hd.ported, fun e c' hnone => ?_⟩
  rw [setCheck_of_ne]
  · exact hd.unasked e c' hnone
  · rintro heq
    cases heq
    exact hnone a hp

theorem Devices.conclude (hd : w.Devices host) {d : D} {c : Cell} {a : BitVec 32}
    (hp : (w.multicasts d).Pursues c a) (addr : BitVec 32) (second : Bool) (used : Option Bool) :
    (w.conclude host d c addr second used).Devices host := by
  rcases conclude_cases host w d c addr second used with ⟨_, _, heq⟩ | ⟨check, _, heq⟩
  · rw [heq, reserve_eq]
    exact (hd.setCheck hp (.asking true [])).congr rfl rfl
  · rw [heq]
    exact hd.setCheck hp check

/-- A careful step of one device's bundles, with the checks of what is pursued no more
begun anew. -/
theorem Devices.setMulticasts (hd : w.Devices host) {d : D} {e : MulticastEvent}
    (hcareful : (w.multicasts d).Careful (host d).multicastDevice e)
    (hunasked : ∀ c, (∀ a, ¬((w.multicasts d).step (host d).multicastDevice
      (host d).sampleRate e).Pursues c a) → w.checks d c = .asking false []) :
    (w.setMulticasts d ((w.multicasts d).step (host d).multicastDevice
      (host d).sampleRate e)).Devices host := by
  obtain ⟨t, hinv⟩ := hd.bundles d
  have hmoved := hinv.moved (hd.ported d) (host d).sampleRate hcareful
  refine ⟨fun d' => ?_, fun d' => ?_, fun d' c hnone => ?_⟩
  · by_cases h : d' = d
    · subst h
      rw [setMulticasts_self]
      exact hinv.step (host d').sampleRate hcareful
    · rw [setMulticasts_of_ne h]
      exact hd.bundles d'
  · by_cases h : d' = d
    · subst h
      rw [setMulticasts_self]
      exact hmoved.2
    · rw [setMulticasts_of_ne h]
      exact hd.ported d'
  · by_cases h : d' = d
    · subst h
      rw [setMulticasts_self] at hnone
      exact hunasked c hnone
    · rw [setMulticasts_of_ne h] at hnone
      exact hd.unasked d' c hnone

theorem Devices.step (hd : w.Devices host) {e : ReservationEvent D}
    (hcareful : CarefulStep host w e) : (w.step host e).Devices host := by
  cases e with
  | own d e =>
      rw [ReservationWorld.step]
      split
      · exact hd
      next hgrace =>
      refine (hd.congr (u := w.setServices d _) rfl rfl).setMulticasts hcareful fun c hnone => ?_
      obtain ⟨t, hinv⟩ := hd.bundles d
      refine hd.unasked d c fun a hp => ?_
      cases (hinv.moved (hd.ported d) (host d).sampleRate hcareful).1 with
      | still _ _ hpursues _ => exact hnone a ((hpursues c a).mpr hp)
      | spawned _ _ _ _ _ _ hpursues _ => exact hnone a ((hpursues c a).mpr (Or.inl hp))
      | deleted _ _ _ _ hpursues _ => exact hnone a ((hpursues c a).mpr hp)
      | activated => exact hgrace rfl
      | retried => exact hgrace rfl
  | announce d a =>
      rw [ReservationWorld.step]
      split
      · exact hd.congr rfl rfl
      · exact hd
  | withdraw d a => exact hd.congr rfl rfl
  | announceAll d => exact hd.congr rfl rfl
  | query d types fqdn => exact hd.congr rfl rfl
  | ask d c =>
      rw [ReservationWorld.step]
      split
      · next task _ htask =>
          have hp := TransmitMulticasts.pursues_of_taskAt htask
          split
          · exact (hd.setCheck hp _).congr rfl rfl
          · exact hd.conclude hp _ _ _
      · exact hd
  | handle d packet =>
      rw [ReservationWorld.step]
      split
      · exact hd.congr rfl rfl
      · exact hd
  | receive d c packet =>
      rw [ReservationWorld.step]
      split
      · next htask _ =>
          have hp := TransmitMulticasts.pursues_of_taskAt htask
          split
          · split
            · exact (hd.conclude hp _ _ _).congr rfl rfl
            · exact hd.congr rfl rfl
          · exact hd
      · exact hd
  | giveUp d c =>
      rw [ReservationWorld.step]
      split
      · next htask =>
          have hp := TransmitMulticasts.pursues_of_taskAt htask
          split
          · exact hd.setCheck hp _
          · exact hd.conclude hp _ _ _
      · exact hd
  | complete d k draw =>
      rw [ReservationWorld.step]
      split
      swap
      · exact hd
      next task htask =>
      split
      swap
      · exact hd
      next used₁ used₂ hcheck =>
      split
      · exact hd
      have hp : (w.multicasts d).Pursues task.dstAddrArc task.dstAddr :=
        ⟨task, List.mem_of_getElem? htask, rfl, rfl⟩
      refine (hd.setCheck hp _).setMulticasts (hcareful task used₁ used₂ htask hcheck)
        fun c hnone => ?_
      by_cases hc : c = task.dstAddrArc
      · rw [hc, setCheck_self]
      rw [setCheck_of_ne fun heq => hc (congrArg Prod.snd heq)]
      obtain ⟨t, hinv⟩ := hd.bundles d
      refine hd.unasked d c fun a hpa => ?_
      have hmoved := (hinv.moved (hd.ported d) (host d).sampleRate
        (hcareful task used₁ used₂ htask hcheck)).1
      cases hmoved with
      | still _ _ hpursues _ => exact hnone a ((hpursues c a).mpr hpa)
      | spawned _ _ _ _ _ _ hpursues _ => exact hnone a ((hpursues c a).mpr (Or.inl hpa))
      | activated _ _ _ _ task' htask' _ hpursues _ =>
          obtain rfl : task = task' := Option.some.inj (htask.symm.trans htask')
          exact hnone a ((hpursues c a).mpr ⟨hpa, hc⟩)
      | retried _ _ _ _ task' _ htask' hpursues _ =>
          obtain rfl : task = task' := Option.some.inj (htask.symm.trans htask')
          exact hnone a ((hpursues c a).mpr (Or.inl ⟨hpa, hc⟩))
  | foreign ip message => exact hd.congr rfl rfl

/-! ## The network -/

/-- A check of one cell may change if it forgets queries. -/
theorem Networked.setCheck (hn : w.Networked host) {d : D} {c : Cell} {check : Checking}
    (hqueries : ∀ q ∈ check.queries, q ∈ (w.checks d c).queries) :
    (w.setCheck d c check).Networked host := by
  refine hn.mono (List.append_nil _).symm rfl rfl fun e c' a hp q hq => ⟨hp, ?_⟩
  by_cases heq : (e, c') = (d, c)
  · cases heq
    rw [setCheck_self] at hq
    exact hqueries q hq
  · rwa [setCheck_of_ne heq] at hq

theorem Networked.conclude (hn : w.Networked host) (d : D) (c : Cell) (addr : BitVec 32)
    (second : Bool) (used : Option Bool) :
    (w.conclude host d c addr second used).Networked host := by
  rcases conclude_cases host w d c addr second used with ⟨_, _, heq⟩ | ⟨check, hcheck, heq⟩
  · rw [heq, reserve_eq]
    refine Networked.setCheck ?_ fun q hq => absurd hq List.not_mem_nil
    exact hn.mono (List.append_nil _).symm rfl rfl fun _ _ _ hp _ hq => ⟨hp, hq⟩
  · rw [heq]
    refine hn.setCheck fun q hq => ?_
    rcases hcheck with ⟨rfl, _⟩ | ⟨rfl, _⟩ <;> exact absurd hq List.not_mem_nil

/-- The next query of a task. -/
theorem Networked.ask (hn : w.Networked host) (hd : w.Devices host) {d : D} {c : Cell}
    {task : GraceTask} (htask : (w.multicasts d).taskAt c = some task) {second : Bool}
    {tried : List Nat} (hcheck : w.checks d c = .asking second tried) :
    ((w.setCheck d c (.waiting second tried w.sent.length)).send
      [⟨.check d c, (host d).ipAddress, queryPacket [.a] (addrName task.dstAddr)⟩]).Networked
        host := by
  have hnew : (w.sent ++ [⟨.check d c, (host d).ipAddress,
      queryPacket [.a] (addrName task.dstAddr)⟩])[w.sent.length]? = some (⟨.check d c,
        (host d).ipAddress, queryPacket [.a] (addrName task.dstAddr)⟩ : MdnsPacket D) :=
    List.getElem?_concat_length
  have hpursues := TransmitMulticasts.pursues_of_taskAt htask
  -- a query of a check is one from before, or it is the new one and for the task's address
  have hqueries : ∀ e c' a, (w.multicasts e).Pursues c' a →
      ∀ q ∈ ((w.setCheck d c (.waiting second tried w.sent.length)).checks e c').queries,
        q ∈ (w.checks e c').queries ∨
          q = w.sent.length ∧ e = d ∧ c' = c ∧ a = task.dstAddr := by
    intro e c' a hp q hq
    by_cases heq : (e, c') = (d, c)
    · cases heq
      rw [setCheck_self] at hq
      obtain ⟨t, hinv⟩ := hd.bundles d
      rcases List.mem_append.mp hq with hq | hq
      · left
        rwa [hcheck]
      · exact Or.inr ⟨List.mem_singleton.mp hq, rfl, rfl, hinv.pursues_inj hp hpursues⟩
    · rw [setCheck_of_ne heq] at hq
      exact Or.inl hq
  refine ⟨fun e c' a hp q hq => ?_, fun h hh => ?_, fun e c' a hp q hq j hj => ?_, fun x hx => ?_⟩
  · rcases hqueries e c' a hp q hq with hold | ⟨rfl, rfl, rfl, rfl⟩
    · obtain ⟨p, hget, hrest⟩ := hn.asked e c' a hp q hold
      exact ⟨p, getElem?_append_of_some hget, hrest⟩
    · exact ⟨_, hnew, rfl, rfl⟩
  · obtain ⟨p, hget, hrest⟩ := hn.answered h hh
    refine ⟨p, getElem?_append_of_some hget, fun a hm hs => ?_⟩
    obtain ⟨j, hj, hget'⟩ := hrest a hm hs
    exact ⟨j, hj, getElem?_append_of_some hget'⟩
  · rcases hqueries e c' a hp q hq with hold | ⟨rfl, _⟩
    · obtain ⟨p, hget, hrest⟩ := hn.refused e c' a hp q hold j hj
      exact ⟨p, getElem?_append_of_some hget, hrest⟩
    · exact absurd (hn.old _ hj) (Nat.lt_irrefl _)
  · exact (hn.old x hx).trans_le (by
      rw [send, List.length_append]
      exact Nat.le_add_right _ _)

omit [DecidableEq D] in
/-- A broadcaster answers. -/
theorem Networked.handle (hn : w.Networked host) (d : D) {packet : Nat} {p : MdnsPacket D}
    (hp : w.sent[packet]? = some p) : (w.handle host d packet p).Networked host := by
  have hmore := hn.mono (u := w.send ((Broadcaster.answers (w.services d) p.message).map
    fun reply => ⟨.services d, (host d).ipAddress, reply.2⟩)) rfl rfl rfl
    fun _ _ _ hp _ hq => ⟨hp, hq⟩
  refine ⟨hmore.asked, fun h hh => ?_, hmore.refused, hmore.old⟩
  rcases List.mem_cons.mp hh with rfl | hh
  swap
  · exact hmore.answered h hh
  refine ⟨p, getElem?_append_of_some hp, fun a hm hs => ?_⟩
  have hanswer := Broadcaster.reservation_answered hs
  rw [← hm] at hanswer
  obtain ⟨k, hk, hget⟩ := List.mem_iff_getElem.mp hanswer
  refine ⟨w.sent.length + k, List.mem_range'.mpr ⟨k, hk, by rw [Nat.one_mul]⟩, ?_⟩
  change (w.sent ++ _)[w.sent.length + k]? = _
  rw [List.getElem?_append_right (Nat.le_add_right _ _), Nat.add_sub_cancel_left,
    List.getElem?_map, List.getElem?_eq_getElem hk, hget]
  rfl

omit [DecidableEq D] in
/-- A packet is received that is no answer. -/
theorem Networked.refuse (hn : w.Networked host) (hd : w.Devices host) {d : D} {c : Cell}
    {task : GraceTask} (htask : (w.multicasts d).taskAt c = some task) {second : Bool}
    {tried : List Nat} {query packet : Nat} (hcheck : w.checks d c = .waiting second tried query)
    {p : MdnsPacket D} (hp : w.sent[packet]? = some p)
    (hrefused : (MdnsClient.new (host d)).accepts (addrName task.dstAddr) p.ip p.message = false) :
    ({ w with taken := (query, packet) :: w.taken } : ReservationWorld D).Networked host := by
  have hpursues := TransmitMulticasts.pursues_of_taskAt htask
  have hquery : query ∈ (w.checks d c).queries := by
    rw [hcheck]
    exact List.mem_append_right _ (List.mem_singleton.mpr rfl)
  obtain ⟨p₁, hget₁, horigin₁, _⟩ := hn.asked d c task.dstAddr hpursues query hquery
  refine ⟨hn.asked, hn.answered, fun e c' a hpa q hq j hj => ?_, fun x hx => ?_⟩
  · rcases List.mem_cons.mp hj with heq | hj
    · cases heq
      -- only one check has this query
      obtain ⟨p₂, hget₂, horigin₂, _⟩ := hn.asked e c' a hpa query hq
      rw [hget₁] at hget₂
      cases hget₂
      rw [horigin₁] at horigin₂
      cases horigin₂
      obtain ⟨t, hinv⟩ := hd.bundles d
      rw [hinv.pursues_inj hpa hpursues]
      exact ⟨p, hp, hrefused⟩
    · exact hn.refused e c' a hpa q hq j hj
  · rcases List.mem_cons.mp hx with rfl | hx
    · exact (List.getElem?_eq_some_iff.mp hget₁).1
    · exact hn.old x hx

/-- The bundles of a device take a careful step. -/
theorem Networked.setMulticasts (hn : w.Networked host) (hd : w.Devices host) {d : D}
    {e : MulticastEvent} (hcareful : (w.multicasts d).Careful (host d).multicastDevice e)
    (hbegun : ∀ k used₁ used₂ draw task, e = .grace k used₁ used₂ draw →
      (w.multicasts d).tasks[k]? = some task → (w.checks d task.dstAddrArc).queries = []) :
    (w.setMulticasts d ((w.multicasts d).step (host d).multicastDevice
      (host d).sampleRate e)).Networked host := by
  obtain ⟨t, hinv⟩ := hd.bundles d
  refine hn.mono (List.append_nil _).symm rfl rfl fun d' c a hp q hq => ⟨?_, hq⟩
  change q ∈ (w.checks d' c).queries at hq
  by_cases h : d' = d
  swap
  · rwa [setMulticasts_of_ne h] at hp
  subst h
  rw [setMulticasts_self] at hp
  cases (hinv.moved (hd.ported d') (host d').sampleRate hcareful).1 with
  | still _ _ hpursues _ => exact (hpursues c a).mp hp
  | spawned _ c₀ _ _ _ hnew hpursues _ =>
      rcases (hpursues c a).mp hp with hold | ⟨rfl, _⟩
      · exact hold
      · rw [hd.unasked d' c fun a' => (hnew a').1] at hq
        exact absurd hq List.not_mem_nil
  | deleted _ _ _ _ hpursues _ => exact (hpursues c a).mp hp
  | activated _ _ _ _ _ _ _ hpursues _ => exact ((hpursues c a).mp hp).1
  | retried k used₁ used₂ draw task _ htask hpursues _ =>
      rcases (hpursues c a).mp hp with hold | ⟨rfl, _⟩
      · exact hold.1
      · rw [hbegun k used₁ used₂ draw task rfl htask] at hq
        exact absurd hq List.not_mem_nil

theorem Networked.step (hn : w.Networked host) (hd : w.Devices host) {e : ReservationEvent D}
    (hcareful : CarefulStep host w e) : (w.step host e).Networked host := by
  have hsame : ∀ {u : ReservationWorld D} {more : List (MdnsPacket D)},
      u.sent = w.sent ++ more → u.handled = w.handled → u.taken = w.taken →
        u.multicasts = w.multicasts → u.checks = w.checks → u.Networked host := by
    intro u more hsent hhandled htaken hmulticasts hchecks
    refine hn.mono hsent hhandled htaken fun d c a hp q hq => ?_
    rw [hmulticasts] at hp
    rw [hchecks] at hq
    exact ⟨hp, hq⟩
  cases e with
  | own d e =>
      rw [ReservationWorld.step]
      split
      · exact hn
      next hgrace =>
      refine (hsame (u := w.setServices d _) (List.append_nil _).symm rfl rfl rfl
        rfl).setMulticasts (hd.congr rfl rfl) hcareful fun _ _ _ _ _ heq => ?_
      rw [heq] at hgrace
      exact absurd rfl hgrace
  | announce d a =>
      rw [ReservationWorld.step]
      split
      · exact hsame (List.append_nil _).symm rfl rfl rfl rfl
      · exact hn
  | withdraw d a => exact hsame (List.append_nil _).symm rfl rfl rfl rfl
  | announceAll d => exact hsame rfl rfl rfl rfl rfl
  | query d types fqdn => exact hsame rfl rfl rfl rfl rfl
  | ask d c =>
      rw [ReservationWorld.step]
      split
      · next hcheck htask =>
          rw [addrFqdn_eq]
          exact hn.ask hd htask hcheck
      · exact hn
  | handle d packet =>
      rw [ReservationWorld.step]
      split
      · next hp => exact hn.handle d hp
      · exact hn
  | receive d c packet =>
      rw [ReservationWorld.step]
      split
      swap
      · exact hn
      next hcheck htask hp =>
      rw [addrFqdn_eq]
      dsimp only
      split
      · exact (hn.conclude d c _ _ (some true)).mono (List.append_nil _).symm rfl rfl
          fun _ _ _ hp _ hq => ⟨hp, hq⟩
      · next hrefused => exact hn.refuse hd htask hcheck hp (Bool.eq_false_iff.mpr hrefused)
  | giveUp d c =>
      rw [ReservationWorld.step]
      split
      swap
      · exact hn
      next hcheck htask =>
      split
      · refine hn.setCheck fun q hq => ?_
        rwa [hcheck]
      · exact hn.conclude d c _ _ _
  | complete d k draw =>
      rw [ReservationWorld.step]
      split
      swap
      · exact hn
      next task htask =>
      split
      swap
      · exact hn
      next used₁ used₂ hcheck =>
      split
      · exact hn
      have hp : (w.multicasts d).Pursues task.dstAddrArc task.dstAddr :=
        ⟨task, List.mem_of_getElem? htask, rfl, rfl⟩
      refine (hn.setCheck fun q hq => absurd hq List.not_mem_nil).setMulticasts
        (hd.setCheck hp _) (hcareful task used₁ used₂ htask hcheck)
        fun k' _ _ _ task' heq htask' => ?_
      cases heq
      obtain rfl : task = task' := Option.some.inj (htask.symm.trans htask')
      rw [setCheck_self]
      rfl
  | foreign ip message => exact hsame rfl rfl rfl rfl rfl

end

end ReservationWorld

end Inferno
