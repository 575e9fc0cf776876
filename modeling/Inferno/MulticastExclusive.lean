import Inferno.MulticastQueries

/-!
# One bundle for an address

The devices on the network mark and look: a reservation is a mark, and the second check
of a task a look. The world refines the protocol of marks and looks (`Refines.step`), in
which two owners never hold the same resource; and a device has no two bundles with one
address. It does so as long as the bundles of each device survive and no second check is
given up before one of its queries got through to all the other devices and back.
-/

namespace Inferno

open MarkAndLook (Step)

namespace ReservationWorld

section

variable {D : Type} {host : D → SelfInfo} {w : ReservationWorld D}

/-- The world as one of marks and looks. -/
structure Refines (host : D → SelfInfo) (w : ReservationWorld D)
    (s : MarkAndLook.State D (BitVec 32) (D × Cell)) : Prop where
  marked : ∀ d a, s.marked d a ↔ reservationOf (host d) a ∈ w.services d
  holding : ∀ d c a, (w.multicasts d).Holds c a → s.stage (d, c) = .holding a
  looking : ∀ d c a, (w.multicasts d).Pursues c a → (w.checks d c).IsSecond →
    ∃ cleared, s.stage (d, c) = .looking a cleared ∧
      (∀ h ∈ w.handled, h.packet ∈ (w.checks d c).queries → h.responder ≠ d →
        reservationOf (host h.responder) a ∉ h.services → h.responder ∈ cleared) ∧
      (w.checks d c = .checked (some false) (some false) → ∀ e, e ≠ d → e ∈ cleared)
  only : ∀ d c a, (s.stage (d, c)).Concerns a →
    (w.multicasts d).Holds c a ∨ (w.multicasts d).Pursues c a ∧ (w.checks d c).IsSecond

/-- The same bundles and marks, and checks that stand where they stood. -/
theorem Refines.mono {s : MarkAndLook.State D (BitVec 32) (D × Cell)} (hr : w.Refines host s)
    {w' : ReservationWorld D}
    (hmarks : ∀ d a, reservationOf (host d) a ∈ w'.services d ↔
      reservationOf (host d) a ∈ w.services d)
    (hmulticasts : w'.multicasts = w.multicasts) (hhandled : w'.handled = w.handled)
    (hsecond : ∀ d c, (w'.checks d c).IsSecond ↔ (w.checks d c).IsSecond)
    (hqueries : ∀ d c, ∀ q ∈ (w'.checks d c).queries, ∀ h ∈ w.handled, h.packet = q →
      q ∈ (w.checks d c).queries)
    (hdone : ∀ d c, w'.checks d c = .checked (some false) (some false) →
      w.checks d c = .checked (some false) (some false) ∨
        ∀ a cleared, s.stage (d, c) = .looking a cleared → ∀ e, e ≠ d → e ∈ cleared) :
    w'.Refines host s := by
  obtain ⟨h1, h2, h3, h4⟩ := hr
  refine ⟨fun d a => (h1 d a).trans (hmarks d a).symm, fun d c a hh => h2 d c a (hmulticasts ▸ hh),
    fun d c a hp hs => ?_, fun d c a hc => ?_⟩
  · obtain ⟨cleared, hstage, hcleared, hall⟩ :=
      h3 d c a (hmulticasts ▸ hp) ((hsecond d c).mp hs)
    refine ⟨cleared, hstage, fun h hh hq => ?_, fun hcheck => ?_⟩
    · rw [hhandled] at hh
      exact hcleared h hh (hqueries d c _ hq h hh rfl)
    · rcases hdone d c hcheck with hold | hnew
      · exact hall hold
      · exact hnew a cleared hstage
  · rw [hmulticasts]
    exact (h4 d c a hc).imp_right fun ⟨hp, hs⟩ => ⟨hp, (hsecond d c).mpr hs⟩

/-- Whoever a query got through to is cleared. -/
theorem Refines.cleared_of_gotThrough {s : MarkAndLook.State D (BitVec 32) (D × Cell)}
    (hr : w.Refines host s) (hn : w.Networked host)
    (hdistinct : ∀ d e, (host d).factoryDeviceId.bytes = (host e).factoryDeviceId.bytes →
      (host d).processId = (host e).processId → d = e)
    {d : D} {c : Cell} {a : BitVec 32} (hp : (w.multicasts d).Pursues c a)
    (hs : (w.checks d c).IsSecond) {q : Nat} (hq : q ∈ (w.checks d c).queries)
    (hthrough : w.GotThrough d q) {cleared : Set D} (hstage : s.stage (d, c) = .looking a cleared)
    {e : D} (hne : e ≠ d) : e ∈ cleared := by
  obtain ⟨cleared', hstage', hcleared, _⟩ := hr.looking d c a hp hs
  obtain ⟨h, hh, rfl, hpacket, hreplies⟩ := hthrough e hne
  rw [hstage] at hstage'
  cases hstage'
  by_contra hnot
  have hreserved : reservationOf (host h.responder) a ∈ h.services := by
    by_contra hfree
    exact hnot (hcleared h hh (hpacket ▸ hq) hne hfree)
  -- it would have answered, and the answer would have been accepted
  obtain ⟨p, hget, _, hmessage⟩ := hn.asked d c a hp q hq
  obtain ⟨p', hget', hanswers⟩ := hn.answered h hh
  rw [hpacket, hget] at hget'
  cases hget'
  obtain ⟨j, hj, hreply⟩ := hanswers a hmessage hreserved
  obtain ⟨p', hget', hrefused⟩ := hn.refused d c a hp q hq j (hreplies j hj)
  rw [hreply] at hget'
  cases hget'
  rw [Bool.eq_false_iff] at hrefused
  refine hrefused ((accepts_reservation _ _ _ _ _).mpr ⟨rfl, fun hboth => ?_⟩)
  exact hne (hdistinct _ _ hboth.2.1 hboth.2.2)

variable [DecidableEq D]

/-! ## Marks and looks -/

/-- The first check comes out well: the address is reserved, and the look begins. -/
theorem Refines.beginLook {s : MarkAndLook.State D (BitVec 32) (D × Cell)}
    (hr : w.Refines host s) (hd : w.Devices host) {d : D} {c : Cell} {a : BitVec 32}
    (hp : (w.multicasts d).Pursues c a) (hfirst : ¬(w.checks d c).IsSecond) :
    ∃ s', Relation.ReflTransGen (Step Prod.fst) s s' ∧
      ((w.reserve host d a).setCheck d c (.asking true [])).Refines host s' := by
  obtain ⟨t, hinv⟩ := hd.bundles d
  have hidle : s.stage (d, c) = .idle := by
    have hnone : ∀ r, ¬(s.stage (d, c)).Concerns r := fun r hcon => by
      rcases hr.only d c r hcon with hh | ⟨_, hs⟩
      · exact hinv.not_both hp hh
      · exact hfirst hs
    cases hstage : s.stage (d, c) with
    | idle => rfl
    | looking r cleared => exact absurd rfl (hstage ▸ hnone r)
    | holding r => exact absurd rfl (hstage ▸ hnone r)
  let marked : D → BitVec 32 → Prop := fun e b => s.marked e b ∨ e = d ∧ b = a
  let s₁ : MarkAndLook.State D (BitVec 32) (D × Cell) := { s with marked := marked }
  refine ⟨s₁.setStage (d, c) (.looking a ∅), ?_, ⟨fun e b => ?_, fun e c' b hh => ?_,
    fun e c' b hpb hs => ?_, fun e c' b hcon => ?_⟩⟩
  · have hmark : Step Prod.fst s s₁ := .mark marked fun _ _ => Or.inl
    have hlook : Step Prod.fst s₁ (s₁.setStage (d, c) (.looking a ∅)) :=
      .look (d, c) a hidle (Or.inr ⟨rfl, rfl⟩)
    exact (Relation.ReflTransGen.single hmark).tail hlook
  · exact (or_congr_left (hr.marked e b)).trans mem_reserve.symm
  · rw [setCheck, reserve_eq] at hh
    have hne : (e, c') ≠ (d, c) := by
      rintro heq
      cases heq
      exact hinv.not_both hp hh
    rw [MarkAndLook.State.setStage_of_ne _ hne]
    exact hr.holding e c' b hh
  · rw [setCheck, reserve_eq] at hpb
    by_cases heq : (e, c') = (d, c)
    · cases heq
      obtain rfl := hinv.pursues_inj hpb hp
      refine ⟨∅, MarkAndLook.State.setStage_self _ _ _, fun h _ hq => ?_, fun hdone => ?_⟩
      · rw [setCheck_self] at hq
        exact absurd hq List.not_mem_nil
      · rw [setCheck_self] at hdone
        cases hdone
    · rw [setCheck_of_ne heq, reserve_eq] at hs ⊢
      rw [MarkAndLook.State.setStage_of_ne _ heq]
      exact hr.looking e c' b hpb hs
  · by_cases heq : (e, c') = (d, c)
    · cases heq
      rw [MarkAndLook.State.setStage_self] at hcon
      cases hcon
      refine Or.inr ⟨?_, ?_⟩
      · rw [setCheck, reserve_eq]
        exact hp
      · rw [setCheck_self]
        rfl
    · rw [MarkAndLook.State.setStage_of_ne _ heq] at hcon
      rw [setCheck_of_ne heq, setCheck, reserve_eq]
      exact hr.only e c' b hcon

/-- A broadcaster that has not reserved the address of a query is cleared by its check. -/
theorem Refines.handle {s : MarkAndLook.State D (BitVec 32) (D × Cell)} (hr : w.Refines host s)
    (hn : w.Networked host) (hd : w.Devices host) (e : D) (packet : Nat) (p : MdnsPacket D) :
    ∃ s', Relation.ReflTransGen (Step Prod.fst) s s' ∧
      (w.handle host e packet p).Refines host s' := by
  -- the check that sent the query, if it is one that looks
  by_cases hlook : ∃ d c a, (w.multicasts d).Pursues c a ∧ (w.checks d c).IsSecond ∧
      packet ∈ (w.checks d c).queries ∧ e ≠ d ∧ reservationOf (host e) a ∉ w.services e
  · obtain ⟨d, c, a, hp, hs, hq, hne, hfree⟩ := hlook
    obtain ⟨t, hinv⟩ := hd.bundles d
    obtain ⟨cleared, hstage, hcleared, hall⟩ := hr.looking d c a hp hs
    refine ⟨s.setStage (d, c) (.looking a (insert e cleared)), .single (.clear (d, c) a cleared e
      hstage fun hm => hfree ((hr.marked e a).mp hm)), ⟨hr.marked, fun d' c' b hh => ?_,
      fun d' c' b hpb hsb => ?_, fun d' c' b hcon => ?_⟩⟩
    · have hneq : (d', c') ≠ (d, c) := by
        rintro heq
        cases heq
        exact hinv.not_both hp hh
      rw [MarkAndLook.State.setStage_of_ne _ hneq]
      exact hr.holding d' c' b hh
    · by_cases heq : (d', c') = (d, c)
      · cases heq
        obtain rfl := hinv.pursues_inj hp hpb
        refine ⟨insert e cleared, MarkAndLook.State.setStage_self _ _ _,
          fun h hh hqh hneh hfreeh => ?_, fun hdone d' hd' => Or.inr (hall hdone d' hd')⟩
        rcases List.mem_cons.mp hh with rfl | hh
        · exact Or.inl rfl
        · exact Or.inr (hcleared h hh hqh hneh hfreeh)
      · rw [MarkAndLook.State.setStage_of_ne _ heq]
        obtain ⟨cleared', hstage', hcleared', hall'⟩ := hr.looking d' c' b hpb hsb
        refine ⟨cleared', hstage', fun h hh hqh hneh hfreeh => ?_, hall'⟩
        rcases List.mem_cons.mp hh with rfl | hh
        · -- only one check has this query
          obtain ⟨p₁, hget₁, horigin₁, _⟩ := hn.asked d c a hp packet hq
          obtain ⟨p₂, hget₂, horigin₂, _⟩ := hn.asked d' c' b hpb packet hqh
          rw [hget₁] at hget₂
          cases hget₂
          rw [horigin₁] at horigin₂
          cases horigin₂
          exact absurd rfl heq
        · exact hcleared' h hh hqh hneh hfreeh
    · by_cases heq : (d', c') = (d, c)
      · cases heq
        rw [MarkAndLook.State.setStage_self] at hcon
        cases hcon
        exact Or.inr ⟨hp, hs⟩
      · rw [MarkAndLook.State.setStage_of_ne _ heq] at hcon
        exact hr.only d' c' b hcon
  · refine ⟨s, .refl, ⟨hr.marked, hr.holding, fun d c a hp hs => ?_, hr.only⟩⟩
    obtain ⟨cleared, hstage, hcleared, hall⟩ := hr.looking d c a hp hs
    refine ⟨cleared, hstage, fun h hh hq hne hfree => ?_, hall⟩
    rcases List.mem_cons.mp hh with rfl | hh
    · exact absurd ⟨d, c, a, hp, hs, hq, hne, hfree⟩ hlook
    · exact hcleared h hh hq hne hfree

/-- The bundles of a device take a step that releases no address. -/
theorem Refines.keep {s : MarkAndLook.State D (BitVec 32) (D × Cell)} (hr : w.Refines host s)
    {d : D} {m : TransmitMulticasts} (hholds : ∀ c a, m.Holds c a ↔ (w.multicasts d).Holds c a)
    (hnew : ∀ c a, m.Pursues c a → (w.multicasts d).Pursues c a ∨ ¬(w.checks d c).IsSecond)
    (hold : ∀ c a, (w.multicasts d).Pursues c a → m.Pursues c a) :
    (w.setMulticasts d m).Refines host s := by
  refine ⟨hr.marked, fun d' c a hh => ?_, fun d' c a hp hs => ?_, fun d' c a hcon => ?_⟩
  · by_cases h : d' = d
    · subst h
      rw [setMulticasts_self] at hh
      exact hr.holding d' c a ((hholds c a).mp hh)
    · rw [setMulticasts_of_ne h] at hh
      exact hr.holding d' c a hh
  · refine hr.looking d' c a ?_ hs
    by_cases h : d' = d
    · subst h
      rw [setMulticasts_self] at hp
      exact (hnew c a hp).resolve_right fun hnot => hnot hs
    · rwa [setMulticasts_of_ne h] at hp
  · have hpart := hr.only d' c a hcon
    by_cases h : d' = d
    · subst h
      rw [setMulticasts_self]
      exact hpart.imp (hholds c a).mpr fun ⟨hp, hs⟩ => ⟨hold c a hp, hs⟩
    · rw [setMulticasts_of_ne h]
      exact hpart

/-- A bundle is deleted: its address is dropped, then no longer reserved. -/
theorem Refines.release {s : MarkAndLook.State D (BitVec 32) (D × Cell)} (hr : w.Refines host s)
    (hd : w.Devices host) {d : D} {m : TransmitMulticasts} {c₀ : Cell} {a₀ : BitVec 32}
    (hheld : (w.multicasts d).Holds c₀ a₀)
    (hpursues : ∀ c a, m.Pursues c a ↔ (w.multicasts d).Pursues c a)
    (hholds : ∀ c a, m.Holds c a ↔ (w.multicasts d).Holds c a ∧ c ≠ c₀) :
    ∃ s', Relation.ReflTransGen (Step Prod.fst) s s' ∧
      ((w.setServices d (removeMulticastIp (w.services d) a₀)).setMulticasts d m).Refines
        host s' := by
  obtain ⟨t, hinv⟩ := hd.bundles d
  let marked : D → BitVec 32 → Prop := fun e b => s.marked e b ∧ ¬(e = d ∧ b = a₀)
  let s₁ : MarkAndLook.State D (BitVec 32) (D × Cell) := s.setStage (d, c₀) .idle
  have hservices : ∀ e b, reservationOf (host e) b ∈
      (w.setServices d (removeMulticastIp (w.services d) a₀)).services e ↔
        reservationOf (host e) b ∈ w.services e ∧ ¬(e = d ∧ b = a₀) := by
    intro e b
    rw [ReservationWorld.setServices]
    dsimp only
    by_cases hed : e = d
    · subst hed
      rw [Function.update_self, mem_removeMulticastIp]
      exact and_congr_right fun _ => ⟨fun hne hboth => hne hboth.2, fun hnot heq => hnot ⟨rfl, heq⟩⟩
    · rw [Function.update_of_ne hed]
      exact ⟨fun h => ⟨h, fun hboth => hed hboth.1⟩, fun h => h.1⟩
  have hstage : ∀ {e : D} {c : Cell}, (e, c) ≠ (d, c₀) → s₁.stage (e, c) = s.stage (e, c) :=
    fun h => MarkAndLook.State.setStage_of_ne _ h _
  refine ⟨{ s₁ with marked := marked }, ?_, ⟨fun e b => ?_, fun e c a hh => ?_,
    fun e c a hp hs => ?_, fun e c a hcon => ?_⟩⟩
  · have hdrop : Step Prod.fst s s₁ := .drop (d, c₀)
    refine (Relation.ReflTransGen.single hdrop).tail (.unmark marked fun e b hm => ?_)
    by_cases hboth : e = d ∧ b = a₀
    · obtain ⟨rfl, rfl⟩ := hboth
      right
      rintro ⟨e', c⟩ rfl hcon
      by_cases heq : (e', c) = (e', c₀)
      · cases heq
        rw [MarkAndLook.State.setStage_self] at hcon
        exact hcon
      · rw [hstage heq] at hcon
        -- the address is pursued or held once in the device
        have hc := (hr.only e' c b hcon).symm.imp_left And.left
        exact heq (congrArg (e', ·) (hinv.cell_of_address (hd.ported e') hc (Or.inr hheld)))
    · exact Or.inl ⟨hm, hboth⟩
  · exact (and_congr_left fun _ => hr.marked e b).trans (hservices e b).symm
  · by_cases h : e = d
    · subst h
      rw [setMulticasts_self] at hh
      obtain ⟨hh, hne⟩ := (hholds c a).mp hh
      exact (hstage fun heq => hne (congrArg Prod.snd heq)).trans (hr.holding e c a hh)
    · rw [setMulticasts_of_ne h] at hh
      exact (hstage fun heq => h (congrArg Prod.fst heq)).trans (hr.holding e c a hh)
  · have hp' : (w.multicasts e).Pursues c a := by
      by_cases h : e = d
      · subst h
        rw [setMulticasts_self] at hp
        exact (hpursues c a).mp hp
      · rwa [setMulticasts_of_ne h] at hp
    have hne : (e, c) ≠ (d, c₀) := by
      rintro heq
      cases heq
      exact hinv.not_both hp' hheld
    obtain ⟨cleared, hlook, hrest⟩ := hr.looking e c a hp' hs
    exact ⟨cleared, (hstage hne).trans hlook, hrest⟩
  · by_cases heq : (e, c) = (d, c₀)
    · cases heq
      rw [MarkAndLook.State.setStage_self] at hcon
      exact hcon.elim
    · change (s₁.stage (e, c)).Concerns a at hcon
      rw [hstage heq] at hcon
      have hpart := hr.only e c a hcon
      by_cases h : e = d
      · subst h
        rw [setMulticasts_self]
        exact hpart.imp (fun hh => (hholds c a).mpr ⟨hh, fun hc => heq (congrArg (e, ·) hc)⟩)
          fun ⟨hp, hs⟩ => ⟨(hpursues c a).mpr hp, hs⟩
      · rw [setMulticasts_of_ne h]
        exact hpart

/-- A task completes: the address it looked for is taken or dropped. -/
theorem Refines.complete {s : MarkAndLook.State D (BitVec 32) (D × Cell)} (hr : w.Refines host s)
    (hd : w.Devices host) {d : D} {k : Nat} {task : GraceTask}
    (htask : (w.multicasts d).tasks[k]? = some task) {used₁ used₂ : Option Bool}
    (hcheck : w.checks d task.dstAddrArc = .checked used₁ used₂) {draw : MulticastDraw}
    (hcareful : (w.multicasts d).Careful (host d).multicastDevice (.grace k used₁ used₂ draw)) :
    ∃ s', Relation.ReflTransGen (Step Prod.fst) s s' ∧
      ((w.setCheck d task.dstAddrArc (.asking false [])).setMulticasts d
        ((w.multicasts d).step (host d).multicastDevice (host d).sampleRate
          (.grace k used₁ used₂ draw))).Refines host s' := by
  obtain ⟨t, hinv⟩ := hd.bundles d
  have hp : (w.multicasts d).Pursues task.dstAddrArc task.dstAddr :=
    ⟨task, List.mem_of_getElem? htask, rfl, rfl⟩
  have hstage : ∀ {e : D} {c : Cell} (stage : MarkAndLook.Stage D (BitVec 32)),
      (e, c) ≠ (d, task.dstAddrArc) →
        (s.setStage (d, task.dstAddrArc) stage).stage (e, c) = s.stage (e, c) :=
    fun _ h => MarkAndLook.State.setStage_of_ne _ h _
  -- what is pursued after the step, other than by this task, was pursued
  have hrest : ∀ {m : TransmitMulticasts} (stage : MarkAndLook.Stage D (BitVec 32)),
      (∀ c a, c ≠ task.dstAddrArc → (m.Pursues c a ↔ (w.multicasts d).Pursues c a)) →
      (∀ c a, c ≠ task.dstAddrArc → (m.Holds c a ↔ (w.multicasts d).Holds c a)) →
      (∀ a, m.Holds task.dstAddrArc a ↔ stage = .holding a) →
      (∀ a, stage.Concerns a → stage = .holding a) →
      ((w.setCheck d task.dstAddrArc (.asking false [])).setMulticasts d m).Refines host
        (s.setStage (d, task.dstAddrArc) stage) := by
    intro m stage hpursues hholds hself hconcerns
    refine ⟨hr.marked, fun e c a hh => ?_, fun e c a hpa hs => ?_, fun e c a hcon => ?_⟩
    · by_cases heq : (e, c) = (d, task.dstAddrArc)
      · cases heq
        rw [setMulticasts_self] at hh
        rw [MarkAndLook.State.setStage_self]
        exact (hself a).mp hh
      · rw [hstage stage heq]
        by_cases h : e = d
        · subst h
          rw [setMulticasts_self] at hh
          exact hr.holding e c a ((hholds c a fun hc => heq (congrArg (e, ·) hc)).mp hh)
        · rw [setMulticasts_of_ne h] at hh
          exact hr.holding e c a hh
    · have hne : (e, c) ≠ (d, task.dstAddrArc) := by
        rintro heq
        cases heq
        change ((w.setCheck d task.dstAddrArc _).checks d task.dstAddrArc).IsSecond at hs
        rw [setCheck_self] at hs
        cases hs
      change ((w.setCheck d task.dstAddrArc _).checks e c).IsSecond at hs
      change ∃ cleared, _ ∧ (∀ h ∈ w.handled,
        h.packet ∈ ((w.setCheck d task.dstAddrArc _).checks e c).queries → _) ∧
          ((w.setCheck d task.dstAddrArc _).checks e c = _ → _)
      rw [setCheck_of_ne hne] at hs ⊢
      rw [hstage stage hne]
      refine hr.looking e c a ?_ hs
      by_cases h : e = d
      · subst h
        rw [setMulticasts_self] at hpa
        exact (hpursues c a fun hc => hne (congrArg (e, ·) hc)).mp hpa
      · rwa [setMulticasts_of_ne h] at hpa
    · by_cases heq : (e, c) = (d, task.dstAddrArc)
      · cases heq
        rw [MarkAndLook.State.setStage_self] at hcon
        rw [setMulticasts_self]
        exact Or.inl ((hself a).mpr (hconcerns a hcon))
      · rw [hstage stage heq] at hcon
        change _ ∨ _ ∧ ((w.setCheck d task.dstAddrArc _).checks e c).IsSecond
        rw [setCheck_of_ne heq]
        have hpart := hr.only e c a hcon
        by_cases h : e = d
        · subst h
          have hc : c ≠ task.dstAddrArc := fun hc => heq (congrArg (e, ·) hc)
          rw [setMulticasts_self]
          exact hpart.imp (hholds c a hc).mpr fun ⟨hpa, hs⟩ => ⟨(hpursues c a hc).mpr hpa, hs⟩
        · rw [setMulticasts_of_ne h]
          exact hpart
  have hdropped : ∀ {m : TransmitMulticasts},
      (∀ c a, c ≠ task.dstAddrArc → (m.Pursues c a ↔ (w.multicasts d).Pursues c a)) →
      (∀ c a, m.Holds c a ↔ (w.multicasts d).Holds c a) →
      ∃ s', Relation.ReflTransGen (Step Prod.fst) s s' ∧
        ((w.setCheck d task.dstAddrArc (.asking false [])).setMulticasts d m).Refines host s' :=
    fun hpursues hholds => ⟨_, .single (.drop (d, task.dstAddrArc)),
      hrest .idle hpursues (fun c a _ => hholds c a)
        (fun a => ⟨fun hh => absurd ((hholds _ a).mp hh) (hinv.not_both hp), fun h => by cases h⟩)
        fun a hcon => hcon.elim⟩
  cases (hinv.moved (hd.ported d) (host d).sampleRate hcareful).1 with
  | still _ _ hpursues hholds => exact hdropped (fun c a _ => hpursues c a) hholds
  | spawned _ _ _ _ hgrace => cases hgrace
  | activated _ _ _ _ task' htask' hok hpursues hholds =>
      obtain rfl : task = task' := Option.some.inj (htask.symm.trans htask')
      obtain ⟨rfl, rfl⟩ := hok
      obtain ⟨cleared, hlook, _, hall⟩ := hr.looking d _ _ hp (by rw [hcheck]; rfl)
      refine ⟨_, .single (.take (d, task.dstAddrArc) task.dstAddr cleared hlook (hall hcheck)),
        hrest (.holding task.dstAddr) (fun c a hc => ?_) (fun c a hc => ?_) (fun a => ?_)
          fun a hcon => by rw [show task.dstAddr = a from hcon]⟩
      · exact (hpursues c a).trans ⟨And.left, fun h => ⟨h, hc⟩⟩
      · exact (hholds c a).trans ⟨fun h => h.resolve_right fun hboth => hc hboth.1, Or.inl⟩
      · refine (hholds _ a).trans ⟨fun h => ?_, fun h => Or.inr ⟨rfl, ?_⟩⟩
        · rcases h with hh | ⟨_, rfl⟩
          · exact absurd hh (hinv.not_both hp)
          · rfl
        · cases h
          rfl
  | retried _ _ _ _ task' _ htask' hpursues hholds =>
      obtain rfl : task = task' := Option.some.inj (htask.symm.trans htask')
      refine hdropped (fun c a hc => (hpursues c a).trans ?_) hholds
      exact ⟨fun h => (h.resolve_right fun hboth => hc hboth.1).1, fun h => Or.inl ⟨h, hc⟩⟩

/-- A check of one cell moves on, with its stage as it is. -/
theorem Refines.setCheck {s : MarkAndLook.State D (BitVec 32) (D × Cell)} (hr : w.Refines host s)
    {d : D} {c : Cell} {check : Checking} (hsecond : check.IsSecond ↔ (w.checks d c).IsSecond)
    (hqueries : ∀ q ∈ check.queries, ∀ h ∈ w.handled, h.packet = q →
      q ∈ (w.checks d c).queries)
    (hdone : check = .checked (some false) (some false) →
      ∀ a cleared, s.stage (d, c) = .looking a cleared → ∀ e, e ≠ d → e ∈ cleared) :
    (w.setCheck d c check).Refines host s := by
  refine hr.mono (fun _ _ => Iff.rfl) rfl rfl (fun e c' => ?_) (fun e c' q hq => ?_)
    fun e c' hd => ?_
  · by_cases heq : (e, c') = (d, c)
    · cases heq
      rw [setCheck_self]
      exact hsecond
    · rw [setCheck_of_ne heq]
  · by_cases heq : (e, c') = (d, c)
    · cases heq
      rw [setCheck_self] at hq
      exact hqueries q hq
    · rw [setCheck_of_ne heq] at hq
      exact fun _ _ _ => hq
  · by_cases heq : (e, c') = (d, c)
    · cases heq
      rw [setCheck_self] at hd
      exact Or.inr (hdone hd)
    · rw [setCheck_of_ne heq] at hd
      exact Or.inl hd

/-- Devices have ids or processes of their own. -/
def Distinct (host : D → SelfInfo) : Prop :=
  ∀ d e, (host d).factoryDeviceId.bytes = (host e).factoryDeviceId.bytes →
    (host d).processId = (host e).processId → d = e

/-- A check is given up. -/
theorem Refines.giveUp {s : MarkAndLook.State D (BitVec 32) (D × Cell)} (hr : w.Refines host s)
    (hdistinct : Distinct host) (hn : w.Networked host) (hd : w.Devices host) {d : D} {c : Cell}
    {task : GraceTask} (htask : (w.multicasts d).taskAt c = some task) {second : Bool}
    {tried : List Nat} {query : Nat} (hcheck : w.checks d c = .waiting second tried query)
    (hheard : second = true → ∃ q ∈ tried ++ [query], w.GotThrough d q) :
    ∃ s', Relation.ReflTransGen (Step Prod.fst) s s' ∧
      (w.conclude host d c task.dstAddr second (some false)).Refines host s' := by
  have hp := TransmitMulticasts.pursues_of_taskAt htask
  cases second with
  | false =>
      refine hr.beginLook hd hp ?_
      rw [hcheck]
      exact Bool.false_ne_true
  | true =>
      have hs : (w.checks d c).IsSecond := by
        rw [hcheck]
        rfl
      obtain ⟨q, hq, hthrough⟩ := hheard rfl
      have hq' : q ∈ (w.checks d c).queries := by
        rw [hcheck]
        exact hq
      refine ⟨s, .refl, hr.setCheck ?_ (fun q hq => absurd hq List.not_mem_nil)
        fun _ a cleared hstage e hne => ?_⟩
      · rw [hcheck]
        exact ⟨fun _ => rfl, fun _ => rfl⟩
      · obtain ⟨_, hstage', _⟩ := hr.looking d c _ hp hs
        rw [hstage] at hstage'
        cases hstage'
        exact hr.cleared_of_gotThrough hn hdistinct hp hs hq' hthrough hstage hne

omit [DecidableEq D] in
theorem Refines.congr {s : MarkAndLook.State D (BitVec 32) (D × Cell)} (hr : w.Refines host s)
    {w' : ReservationWorld D} (hservices : w'.services = w.services)
    (hmulticasts : w'.multicasts = w.multicasts) (hhandled : w'.handled = w.handled)
    (hchecks : w'.checks = w.checks) : w'.Refines host s :=
  hr.mono (fun d a => by rw [hservices]) hmulticasts hhandled (fun d c => by rw [hchecks])
    (fun d c q hq _ _ _ => hchecks ▸ hq) fun d c h => Or.inl (hchecks ▸ h)

/-- Services change, but no reservation does. -/
theorem Refines.setServices {s : MarkAndLook.State D (BitVec 32) (D × Cell)}
    (hr : w.Refines host s) (d : D) {services : List Service}
    (hmem : ∀ a, reservationOf (host d) a ∈ services ↔
      reservationOf (host d) a ∈ w.services d) : (w.setServices d services).Refines host s := by
  refine hr.mono (fun e a => ?_) rfl rfl (fun _ _ => Iff.rfl) (fun _ _ _ hq _ _ _ => hq)
    fun _ _ h => Or.inl h
  rw [ReservationWorld.setServices]
  dsimp only
  by_cases hed : e = d
  · subst hed
    rw [Function.update_self]
    exact hmem a
  · rw [Function.update_of_ne hed]

theorem Refines.own {s : MarkAndLook.State D (BitVec 32) (D × Cell)} (hr : w.Refines host s)
    (hd : w.Devices host) {d : D} {e : MulticastEvent}
    (hcareful : (w.multicasts d).Careful (host d).multicastDevice e) (hgrace : ¬e.isGrace = true) :
    ∃ s', Relation.ReflTransGen (Step Prod.fst) s s' ∧ (w.own host d e).Refines host s' := by
  obtain ⟨t, hinv⟩ := hd.bundles d
  have hkept : (w.multicasts d).released e = none →
      (w.setServices d (w.servicesAfter d e)).Refines host s := by
    intro hnone
    rw [servicesAfter, hnone]
    exact hr.setServices d fun _ => Iff.rfl
  rw [ReservationWorld.own]
  cases (hinv.moved (hd.ported d) (host d).sampleRate hcareful).1 with
  | still _ hnone hpursues hholds =>
      exact ⟨s, .refl, (hkept hnone).keep hholds (fun c a hp => Or.inl ((hpursues c a).mp hp))
        fun c a => (hpursues c a).mpr⟩
  | spawned _ c₀ a₀ hnone _ hnew hpursues hholds =>
      refine ⟨s, .refl, (hkept hnone).keep hholds (fun c a hp => ?_)
        fun c a hp => (hpursues c a).mpr (Or.inl hp)⟩
      refine ((hpursues c a).mp hp).imp id fun heq hs => ?_
      change (w.checks d c).IsSecond at hs
      rw [heq.1, hd.unasked d c₀ fun a' => (hnew a').1] at hs
      exact Bool.false_ne_true hs
  | deleted i bundle hb hreleased hpursues hholds =>
      cases hrel : (w.multicasts d).released (.delete i) with
      | none =>
          refine ⟨s, .refl, (hkept hrel).keep (fun c a => ?_)
            (fun c a hp => Or.inl ((hpursues c a).mp hp)) fun c a => (hpursues c a).mpr⟩
          refine (hholds c a).trans ⟨And.left, fun hh => ⟨hh, ?_⟩⟩
          rintro rfl
          have hsome := (hreleased a).mpr hh
          rw [hrel] at hsome
          cases hsome
      | some a₀ =>
          rw [servicesAfter, hrel]
          exact hr.release hd ((hreleased a₀).mp hrel) hpursues hholds
  | activated => exact absurd rfl hgrace
  | retried => exact absurd rfl hgrace

theorem Refines.ask {s : MarkAndLook.State D (BitVec 32) (D × Cell)} (hr : w.Refines host s)
    (hn : w.Networked host) {d : D} {c : Cell} {second : Bool} {tried : List Nat}
    (hcheck : w.checks d c = .asking second tried) (packet : MdnsPacket D) :
    ((w.setCheck d c (.waiting second tried w.sent.length)).send [packet]).Refines host s := by
  have hwait : (w.setCheck d c (.waiting second tried w.sent.length)).Refines host s := by
    refine hr.setCheck ?_ (fun q hq h hh heq => ?_) fun hdone => by cases hdone
    · rw [hcheck]
      exact Iff.rfl
    · rw [hcheck]
      rcases List.mem_append.mp hq with hq | hq
      · exact hq
      · -- nobody has handled what is not sent yet
        obtain ⟨p, hget, _⟩ := hn.answered h hh
        rw [heq, List.mem_singleton.mp hq] at hget
        exact absurd (List.getElem?_eq_some_iff.mp hget).1 (Nat.lt_irrefl _)
  exact hwait.congr rfl rfl rfl rfl

/-- A check finds its address in use. -/
theorem Refines.conflict {s : MarkAndLook.State D (BitVec 32) (D × Cell)} (hr : w.Refines host s)
    {d : D} {c : Cell} {second : Bool} {tried : List Nat} {query : Nat}
    (hcheck : w.checks d c = .waiting second tried query) (addr : BitVec 32) :
    (w.conclude host d c addr second (some true)).Refines host s := by
  rcases conclude_cases host w d c addr second (some true) with ⟨_, hused, _⟩ | ⟨check, hcases, heq⟩
  · cases hused
  rw [heq]
  rcases hcases with ⟨rfl, rfl⟩ | ⟨rfl, rfl, _⟩
  · refine hr.setCheck ?_ (fun q hq => absurd hq List.not_mem_nil) fun hdone => by cases hdone
    rw [hcheck]
    exact ⟨fun _ => rfl, fun _ => rfl⟩
  · refine hr.setCheck ?_ (fun q hq => absurd hq List.not_mem_nil) fun hdone => by cases hdone
    rw [hcheck]
    exact ⟨fun h => (by cases h), fun h => (by cases h)⟩

theorem Refines.step {s : MarkAndLook.State D (BitVec 32) (D × Cell)} (hr : w.Refines host s)
    (hdistinct : Distinct host) (hn : w.Networked host) (hd : w.Devices host)
    {e : ReservationEvent D} (hcareful : CarefulStep host w e) (hheard : HeardStep w e) :
    ∃ s', Relation.ReflTransGen (Step Prod.fst) s s' ∧ (w.step host e).Refines host s' := by
  cases e with
  | own d e =>
      rw [ReservationWorld.step]
      split
      · exact ⟨s, .refl, hr⟩
      · next hgrace => exact hr.own hd hcareful hgrace
  | announce d a =>
      rw [ReservationWorld.step]
      split
      · next hs =>
          exact ⟨s, .refl, (hr.setServices d fun _ => mem_addService hs).congr rfl rfl rfl rfl⟩
      · exact ⟨s, .refl, hr⟩
  | withdraw d a => exact ⟨s, .refl, hr.setServices d fun _ => mem_withdrawService⟩
  | announceAll d => exact ⟨s, .refl, hr.congr rfl rfl rfl rfl⟩
  | query d types fqdn => exact ⟨s, .refl, hr.congr rfl rfl rfl rfl⟩
  | ask d c =>
      rw [ReservationWorld.step]
      split
      swap
      · exact ⟨s, .refl, hr⟩
      next second tried task hcheck htask =>
      rw [addrFqdn_eq]
      exact ⟨s, .refl, hr.ask hn hcheck _⟩
  | handle d packet =>
      rw [ReservationWorld.step]
      split
      · next p _ => exact hr.handle hn hd d packet p
      · exact ⟨s, .refl, hr⟩
  | receive d c packet =>
      rw [ReservationWorld.step]
      split
      swap
      · exact ⟨s, .refl, hr⟩
      next second tried query task p hcheck htask _ =>
      rw [addrFqdn_eq]
      dsimp only
      split
      · exact ⟨s, .refl, (hr.conflict hcheck task.dstAddr).congr rfl rfl rfl rfl⟩
      · exact ⟨s, .refl, hr.congr rfl rfl rfl rfl⟩
  | giveUp d c =>
      rw [ReservationWorld.step]
      split
      swap
      · exact ⟨s, .refl, hr⟩
      next second tried query task hcheck htask =>
      split
      · refine ⟨s, .refl, hr.setCheck ?_ (fun q hq _ _ _ => hcheck ▸ hq)
          fun hdone => by cases hdone⟩
        rw [hcheck]
        exact Iff.rfl
      · next hlen =>
          refine hr.giveUp hdistinct hn hd htask hcheck fun hsecond => ?_
          exact hheard tried query (hsecond ▸ hcheck) (Nat.not_lt.mp hlen)
  | complete d k draw =>
      rw [ReservationWorld.step]
      split
      swap
      · exact ⟨s, .refl, hr⟩
      next task htask =>
      split
      swap
      · exact ⟨s, .refl, hr⟩
      next used₁ used₂ hcheck =>
      split
      · exact ⟨s, .refl, hr⟩
      · exact hr.complete hd htask hcheck (hcareful task used₁ used₂ htask hcheck)
  | foreign ip message => exact ⟨s, .refl, hr.congr rfl rfl rfl rfl⟩

/-! ## Every run -/

end

end ReservationWorld

namespace ReservationWorld

open TransmitMulticasts (drawn)

section

variable {D : Type} [DecidableEq D] (others : D → List D) (host : D → SelfInfo)

variable {others host}

end

/-- A task asks three times, and nobody answers. -/
def unanswered (d : Bool) : List (ReservationEvent Bool) :=
  [.ask d 0, .giveUp d 0, .ask d 0, .giveUp d 0, .ask d 0, .giveUp d 0]

/-- A task asks three times; the other device hears the first query, and has nothing to say. -/
def unclaimed (d : Bool) (packet : Nat) : List (ReservationEvent Bool) :=
  [.ask d 0, .handle (!d) packet, .giveUp d 0, .ask d 0, .giveUp d 0, .ask d 0, .giveUp d 0]

def created (d : Bool) : List (ReservationEvent Bool) :=
  [.own d .publish, .own d (.check 1 [some 0]), .own d (.create (drawn 1))]

/-- Both draw one address. The first activates its bundle; the second is told, draws
another and activates its own. -/
def sameDraw : List (ReservationEvent Bool) :=
  created true ++ created false ++
    unanswered true ++ unclaimed true 3 ++ [.complete true 0 (drawn 3)] ++
    [.ask false 0, .handle true 6, .receive false 0 7, .complete false 0 (drawn 2)] ++
    unanswered false ++ unclaimed false 11 ++ [.complete false 0 (drawn 3)]

def sameDrawRun : ReservationWorld Bool := (start fun _ _ => false).run twoProcesses sameDraw

end ReservationWorld

/-- The second device is told by the first one, which reserved the address. -/
theorem conflict_is_real_sameDraw : ∃ x ∈ ReservationWorld.sameDrawRun.conflicts,
    x.device = false ∧ ∃ p, ReservationWorld.sameDrawRun.sent[x.packet]? = some p ∧
      (p.origin = .foreign ∨ ∃ e, e ≠ x.device ∧ p.origin = .services e ∧
        (e, x.addr) ∈ ReservationWorld.sameDrawRun.reserved) := by
  have hdevices : ReservationWorld.sameDrawRun.conflicts.map Conflict.device = [false] := by
    decide +kernel
  obtain ⟨x, hx, hdevice⟩ := List.map_eq_singleton_iff.mp hdevices
  have hmem : x ∈ ReservationWorld.sameDrawRun.conflicts := hx ▸ List.mem_singleton_self x
  exact ⟨x, hmem, hdevice, conflict_is_real ReservationWorld.twoProcesses (fun _ _ => false)
    ReservationWorld.sameDraw x hmem⟩

end Inferno
