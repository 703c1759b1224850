import Mathlib.Data.List.Range
import ScriptHost.Proofs.Steadiness
import ScriptHost.Proofs.Ticks

/-!
# Errands

A host is told to do one thing after another, and its foreign code loads and unloads nothing, puts
nothing in the queue and lets no tick pass (`Errand.Meek`). Then each tick has the next number,
works off the queue, and hands its number on to what is connected by then (`Errand.Chimes`). So an
event is handed one number after the other from when it begins to come in until it ceases to
(`Errand.ticks_in_turn`).
-/
namespace ScriptHost

/-- What a host is told to do from outside. -/
inductive Errand where
  | boot
  | tick
  | load (path : Datum)
  | unload
  | command (line author : String)
  | post (author : Datum) (text : String)
  | queue (path : String)
  | shutDown

namespace Errand

open World Op

/-- What a host does about an errand. -/
def op (host : Responder) : Errand → Op Unit
  | boot => Op.boot host
  | tick => Op.tick host
  | load path => discard (Op.load host path)
  | unload => Op.unload host
  | command line author => discard (runCommandLine host line author)
  | post author text => discard (Op.post host author text)
  | queue path => queueReload path
  | shutDown => Op.shutDown host

def isTick : Errand → Bool
  | tick => true
  | _ => false

/-- Whether an errand lets time pass. -/
def stirs : Errand → Bool
  | tick | queue _ => true
  | _ => false

/-- Errands one after the other, however each of them ends. -/
def run (host : Responder) (es : List Errand) : Op Unit :=
  es.forM fun e => discard (attempt (e.op host))

/-- Foreign code does nothing in the course of an errand that a host under restraint would take
back: it loads and unloads nothing, puts nothing in the queue and lets no tick pass. What a tick
reloads does not fail in a way that ends the tick. -/
def Meek (n : Nat) (f : Fault) (w : World) : Errand → Prop
  | tick => (applyPending (respond n)).Ends w.ticking ∧
      AgreeAt (applyPending (restrained "tick" f n)) (applyPending (respond n)) w.ticking ∧
      AgreeAt
        (emit (restrained "tick" f n) "tick" [.int (ripe (respond n) w).application.tick])
        (emit (respond n) "tick" [.int (ripe (respond n) w).application.tick])
        (ripe (respond n) w)
  | e => AgreeAt (e.op (restrained "tick" f n)) (e.op (respond n)) w

/-- Foreign code does so in each errand of a run. -/
def AllMeek (n : Nat) (f : Fault) : List Errand → World → Prop
  | [], _ => True
  | e :: es, w => e.Meek n f w ∧ AllMeek n f es ((e.op (respond n)).after w)

/-- The worlds in which the ticks of a run are told. -/
def tellings (host : Responder) : List Errand → World → List World
  | [], _ => []
  | e :: es, w =>
    if e.isTick then ripe host w :: tellings host es ((e.op host).after w)
    else tellings host es ((e.op host).after w)

variable {n : Nat} {f : Fault} {w : World} {e : Errand} {es : List Errand}

/-- An errand is done alike at hosts that govern alike. -/
theorem alike_op {R : World → World → Prop} {p : Fault → Prop} {host host' : Responder}
    (B : Bond R p) (hg : Governs R host host' p) (hs : e.stirs → Restless R) :
    Op.Alike R (e.op host) (e.op host') := by
  cases e with
  | boot => exact alike_boot B hg
  | tick => exact alike_tick B hg (hs rfl)
  | load path => exact (hg.load path).discard
  | unload => exact hg.unload
  | command line author => exact (alike_runCommandLine B hg line author).discard
  | post author text => exact (alike_post B hg.toAttends author text).discard
  | queue path => exact alike_queueReload B (hs rfl) path
  | shutDown => exact alike_shutDown B hg

theorem follows_op {host : Responder} (hh : host.Follows) (e : Errand) : (e.op host).Follows :=
  follows_iff_alike.2 fun base =>
    alike_op (bond_trail base) (governs_trail hh base) fun _ => restless_trail base

/-! ### One tick -/

/-- How a tick goes from a world on: the clock goes on by one, the queue is worked off, and the
number is handed on, once, to each handler that is connected by then, whatever becomes of those
before it. -/
structure Chimes (n : Nat) (w : World) (hs : Handlers) : Prop where
  ends : (Op.tick (respond n)).Ends w
  number : (ripe (respond n) w).application.tick = w.application.tick + 1
  drained : (ripe (respond n) w).pending = []
  handlers : (ripe (respond n) w).signals.find? "tick" = some hs
  once : hs.Nodup
  incoming : ∀ {event}, (ripe (respond n) w).signalOf event = some "tick" →
    (.event event ∈ hs ↔ (ripe (respond n) w).Incoming event)
  told : (Op.tick (respond n)).after w =
    (callHandlers (respond n) "tick" [.int (ripe (respond n) w).application.tick] hs).after
      (ripe (respond n) w)
  kept : ((Op.tick (respond n)).after w).application.tick = w.application.tick + 1
  /-- The script that a handler finds is the one that is there once the queue has been worked off.
  -/
  holding : ∀ {h x}, CalledIn (respond n) "tick" [.int (ripe (respond n) w).application.tick]
    (ripe (respond n) w) h x → x.session.holding = (ripe (respond n) w).session.holding
  /-- A script that has been loaded again is in an environment opened since, not in that of the one
  before. -/
  renewed : ∀ {qs}, (applyPending (respond n)).outcome w.ticking = .ok qs → qs ≠ [] →
    ∀ {home}, (ripe (respond n) w).session.environment = some home →
      w.homes.size ≤ home ∧ w.session.environment ≠ some home
  /-- What the one before listened to is connected only if it has begun to come in anew. -/
  dropped : ∀ {qs}, (applyPending (respond n)).outcome w.ticking = .ok qs → qs ≠ [] →
    ∀ x ∈ w.eventBooks.active.entries, .event x.2 ∈ hs →
      .attach x.2 ∈ (ripe (respond n) w).history.toList.drop w.history.size

theorem witnessed_ripe (hw : w.Ready) (hm : tick.Meek n f w) :
    Witnessed "tick" w (ripe (respond n) w) := by
  obtain ⟨-, hagree, -⟩ := hm
  have hh := alike_witnessed_restrained "tick" f n
  have hclock : Witnessed "tick" w w.ticking :=
    (timeless_witnessed "tick" w).clock (fun a => { a with tick := a.tick + 1 })
      hw.faithful.witnessed
  rw [ripe, ← hagree.2]
  exact alike_only_iff.1 (alike_applyPending (lifeInvariant_witnessed "tick" w).toInvariant.bond
    (governs_witnessed hh w) (timeless_witnessed "tick" w).restless) _ hclock

/-- Step: a tick goes as it should. -/
theorem exists_chimes (hw : w.Ready) (hm : tick.Meek n f w) :
    (ripe (respond n) w).Ready ∧ ((Op.tick (respond n)).after w).Ready ∧
      Reaches (ripe (respond n) w) ((Op.tick (respond n)).after w) ∧ ∃ hs, Chimes n w hs := by
  have hripe : (ripe (respond n) w).Ready :=
    hw.onward (reaches_ripe (follows_respond n) w) (witnessed_ripe hw hm)
  obtain ⟨he, hagree, hagree'⟩ := hm
  obtain ⟨hs, hf⟩ := Option.isSome_iff_exists.1 hripe.bell
  obtain ⟨hends, htold⟩ := tick_of_ends he hf
  set u := ripe (respond n) w
  have hemit : (Op.tick (respond n)).after w =
      (emit (respond n) "tick" [.int u.application.tick]).after u :=
    htold.trans (after_emit_of_find? hf).symm
  have hreach : Reaches u ((Op.tick (respond n)).after w) :=
    hemit ▸ follows_emit (follows_respond n) _ _ u
  have hwitness : Witnessed "tick" u ((Op.tick (respond n)).after w) := by
    rw [hemit, ← hagree'.2]
    exact alike_only_iff.1 ((governs_witnessed (alike_witnessed_restrained "tick" f n) u).emit _ _)
      u hripe.faithful.witnessed
  have hpulse : ((emit (respond n) "tick" [.int u.application.tick]).after u).pulse = u.pulse := by
    rw [← hagree'.2]
    exact pulse_emit "tick" f n _ _ u
  have hdrains : u.pending = [] ∧ u.application.tick = w.application.tick + 1 := by
    have hsame : ripe (restrained "tick" f n) w = u := hagree.2
    have he' : (applyPending (restrained "tick" f n)).Ends w.ticking := by
      unfold Ends
      rw [hagree.1]
      exact he
    exact hsame ▸ applyPending_drains (alike_timed_restrained "tick" f n) he'
  refine ⟨hripe, hripe.onward hreach hwitness, hreach, hs, hends, hdrains.2, hdrains.1, hf,
    hripe.faithful.nodup hf, fun ho => hripe.faithful.incoming_iff ho hf, htold, ?_, fun hc => ?_,
    fun ho hq home he => ?_, fun ho hq x hx hm => ?_⟩
  · rw [hemit]
    exact (congrArg Prod.fst hpulse).trans hdrains.2
  · exact holding_of_calledIn (follows_respond n) (congrArg (·.2.2) hpulse) hc
  · have hnew := (renewed_of_applyPending (follows_respond n) hw.tidy ho hq).1 he
    exact ⟨hnew, fun hold => absurd (hw.tidy.housed hold) (Nat.not_lt.2 hnew)⟩
  · exact (renewed_of_applyPending (follows_respond n) hw.tidy ho hq).2 x hx ⟨"tick", hs, hf, hm⟩

/-! ### One errand -/

theorem tick_queueReload (path : String) (w : World) :
    ((queueReload path).after w).application.tick = w.application.tick := by
  by_cases ht : Askable path
  · obtain ⟨-, l, ha⟩ := queues_queueReload ht w
    rw [ha]
  · rw [(queueReload_of_not_askable ht w).2]

/-- Nothing but a tick makes the clock go on. -/
theorem tick_op_of_agree (ht : e.isTick = false)
    (hm : AgreeAt (e.op (restrained "tick" f n)) (e.op (respond n)) w) :
    ((e.op (respond n)).after w).application.tick = w.application.tick := by
  have idle (hs : e.stirs = false) :
      ((e.op (respond n)).after w).application.tick = w.application.tick := by
    rw [← hm.2]
    exact (alike_only_iff.1 (alike_op (loose_timed w).bond.toBond
      (governs_timed (alike_timed_restrained "tick" f n w)) fun h => absurd (hs ▸ h) nofun)
      w ⟨rfl, rfl⟩).1
  cases e with
  | tick => cases ht
  | queue path => exact tick_queueReload path w
  | _ => exact idle rfl

/-- Step: an errand leaves everything ready, and the clock goes on iff it is a tick. -/
theorem ready_op (hw : w.Ready) (hm : e.Meek n f w) :
    ((e.op (respond n)).after w).Ready ∧
      ((e.op (respond n)).after w).application.tick =
        w.application.tick + if e.isTick then 1 else 0 := by
  have agree (ht : e.isTick = false)
      (hm : AgreeAt (e.op (restrained "tick" f n)) (e.op (respond n)) w) :
      ((e.op (respond n)).after w).Ready ∧
        ((e.op (respond n)).after w).application.tick =
          w.application.tick + if e.isTick then 1 else 0 := by
    refine ⟨hw.onward (follows_op (follows_respond n) e w) ?_, ?_⟩
    · rw [← hm.2]
      exact alike_only_iff.1 (alike_op (lifeInvariant_witnessed "tick" w).toInvariant.bond
        (governs_witnessed (alike_witnessed_restrained "tick" f n) w)
        fun _ => (timeless_witnessed "tick" w).restless) w hw.faithful.witnessed
    · rw [tick_op_of_agree ht hm, ht]
      rfl
  cases e with
  | tick =>
    obtain ⟨-, hready, -, hs, h⟩ := exists_chimes hw hm
    exact ⟨hready, h.kept⟩
  | _ => exact agree rfl hm

/-! ### Runs -/

theorem allMeek_append {pre post : List Errand} (h : AllMeek n f (pre ++ post) w) :
    AllMeek n f pre w ∧ AllMeek n f post ((run (respond n) pre).after w) := by
  induction pre generalizing w with
  | nil => exact ⟨trivial, h⟩
  | cons e pre ih =>
    obtain ⟨he, h⟩ := h
    obtain ⟨hpre, hpost⟩ := ih h
    exact ⟨⟨he, hpre⟩, hpost⟩

theorem tellings_append (host : Responder) (pre post : List Errand) (w : World) :
    tellings host (pre ++ post) w =
      tellings host pre w ++ tellings host post ((run host pre).after w) := by
  induction pre generalizing w with
  | nil => rfl
  | cons e pre ih =>
    have h := ih ((e.op host).after w)
    rw [List.cons_append, tellings, tellings, h]
    cases e.isTick <;> rfl

theorem length_tellings (host : Responder) (es : List Errand) (w : World) :
    (tellings host es w).length = es.countP isTick := by
  induction es generalizing w with
  | nil => rfl
  | cons e es ih =>
    rw [tellings, List.countP_cons, ← ih ((e.op host).after w)]
    cases e.isTick <;> rfl

/-- How the ticks of a run are told: in order, with one number after the other. -/
structure Rings (w : World) (us : List World) (v : World) : Prop where
  numbers : us.map (·.application.tick) = List.range' (w.application.tick + 1) us.length
  reaches : Reaches w v
  between : ∀ u ∈ us, u.Ready ∧ Reaches w u ∧ Reaches u v
  ordered : us.Pairwise Reaches

/-- Run: the ticks of a run are told in order. -/
theorem rings_run (hw : w.Ready) (hm : AllMeek n f es w) :
    ((run (respond n) es).after w).Ready ∧
      Rings w (tellings (respond n) es w) ((run (respond n) es).after w) := by
  induction es generalizing w with
  | nil => exact ⟨hw, rfl, .refl w, List.forall_mem_nil _, .nil⟩
  | cons e es ih =>
    obtain ⟨he, hm⟩ := hm
    obtain ⟨hready, hclock⟩ := ready_op hw he
    obtain ⟨hlast, hrings⟩ := ih hready hm
    have hstep : Reaches w ((e.op (respond n)).after w) := follows_op (follows_respond n) e w
    have hlater : ∀ u ∈ tellings (respond n) es ((e.op (respond n)).after w),
        u.Ready ∧ Reaches w u ∧
          Reaches u ((run (respond n) es).after ((e.op (respond n)).after w)) :=
      fun u hu => by
        obtain ⟨hu, hfrom, hto⟩ := hrings.between u hu
        exact ⟨hu, hstep.trans hfrom, hto⟩
    refine ⟨hlast, ?_⟩
    change Rings w (tellings (respond n) (e :: es) w)
      ((run (respond n) es).after ((e.op (respond n)).after w))
    rw [tellings]
    cases ht : e.isTick with
    | false =>
      rw [ht] at hclock
      refine ⟨?_, hstep.trans hrings.reaches, hlater, hrings.ordered⟩
      have hnumbers := hrings.numbers
      rwa [hclock] at hnumbers
    | true =>
      obtain rfl : e = tick := by cases e <;> first | rfl | cases ht
      obtain ⟨hripe, -, hreach, hs, hchimes⟩ := exists_chimes hw he
      refine ⟨?_, hstep.trans hrings.reaches, List.forall_mem_cons.2 ⟨?_, hlater⟩,
        .cons (fun u hu => hreach.trans (hrings.between u hu).2.1) hrings.ordered⟩
      · have hnumbers := hrings.numbers
        rw [hclock] at hnumbers
        exact congrArg₂ List.cons hchimes.number hnumbers
      · exact ⟨hripe, reaches_ripe (follows_respond n) w, hreach.trans hrings.reaches⟩

/-! ### Handing on -/

/-- The numbers that are handed on to an event while the history has more than `p` deeds and at most
`q`, by the ticks that are told in some worlds. -/
def forwarded (event p q : Nat) (us : List World) : List Nat :=
  (us.filter fun u => p < u.history.size ∧ u.history.size ≤ q).flatMap fun u =>
    List.replicate (((u.signals.find? "tick").getD []).count (.event event)) u.application.tick

/-- Numbers in a row: those of worlds whose histories are of some length are in a row too. -/
theorem map_filter_of_ordered {p q : Nat} {us : List World} {first : Nat}
    (hn : us.map (·.application.tick) = List.range' first us.length)
    (ho : us.Pairwise Reaches) :
    (us.filter fun u => p < u.history.size ∧ u.history.size ≤ q).map (·.application.tick) =
      List.range' (first + us.countP fun u => u.history.size ≤ p)
        (us.countP fun u => p < u.history.size ∧ u.history.size ≤ q) := by
  induction us generalizing first with
  | nil => rfl
  | cons u us ih =>
    rw [List.map_cons, List.length_cons, List.range'_succ] at hn
    obtain ⟨hfirst, hn⟩ := List.cons.inj hn
    obtain ⟨hlater, ho⟩ := List.pairwise_cons.1 ho
    have hge : ∀ x ∈ us, u.history.size ≤ x.history.size := fun x hx => (hlater x hx).size_le
    have ih := ih hn ho
    by_cases hp : u.history.size ≤ p
    · have hnot : ¬ (p < u.history.size ∧ u.history.size ≤ q) := by omega
      rw [List.filter_cons_of_neg (by simpa using hnot), ih,
        List.countP_cons_of_pos (by simpa using hp), List.countP_cons_of_neg (by simpa using hnot)]
      congr 1
      omega
    · have hzero : us.countP (fun u => u.history.size ≤ p) = 0 := by
        refine List.countP_eq_zero.2 fun x hx => ?_
        have := hge x hx
        simp only [decide_eq_true_eq]
        omega
      rw [hzero] at ih
      rw [List.countP_cons_of_neg (by simpa using hp), hzero]
      by_cases hq : u.history.size ≤ q
      · have hin : p < u.history.size ∧ u.history.size ≤ q := by omega
        rw [List.filter_cons_of_pos (by simpa using hin), List.map_cons, ih,
          List.countP_cons_of_pos (by simpa using hin), List.range'_succ, hfirst]
        rfl
      · -- All that comes later is too long.
        have hnone : ∀ x ∈ u :: us, ¬ (p < x.history.size ∧ x.history.size ≤ q) := by
          intro x hx
          rcases List.mem_cons.1 hx with rfl | hx
          · omega
          · have := hge x hx
            omega
        rw [List.filter_eq_nil_iff.2 fun x hx => by simpa using hnone x hx,
          List.countP_eq_zero.2 fun x hx => by simpa using hnone x hx]
        rfl

/-- An event is connected once after it has begun to come in, until it ceases to. -/
theorem count_of_history {u v : World} (hu : u.Ready) (hr : Reaches u v) {event : Nat}
    {before mid after : List Deed} (ho : v.signalOf event = some "tick")
    (hh : v.history.toList = before ++ .attach event :: (mid ++ after))
    (hd : .detach event ∉ mid) (hp : before.length < u.history.size)
    (hq : u.history.size ≤ before.length + 1 + mid.length) :
    ((u.signals.find? "tick").getD []).count (.event event) = 1 := by
  obtain ⟨k, hk⟩ := Nat.exists_eq_add_of_lt hp
  have htake : u.history.toList = before ++ .attach event :: mid.take k := by
    rw [List.prefix_iff_eq_take.1 hr.history, hh, Array.length_toList, hk, Nat.add_assoc,
      List.take_length_add_append, List.take_succ_cons, List.take_append_of_le_length (by omega)]
  have hincoming : u.Incoming event := by
    refine ⟨before, mid.take k, htake, fun d hd' => beq_eq_false_iff_ne.2 ?_⟩
    rintro rfl
    exact hd (List.mem_of_mem_take hd')
  have hlt : event < u.events.size := hu.faithful.made (htake ▸ by simp)
  rw [hr.longer.signalOf_eq hlt] at ho
  obtain ⟨hs, hf⟩ := Option.isSome_iff_exists.1 hu.bell
  rw [hf]
  exact List.count_eq_one_of_mem (hu.faithful.nodup hf)
    ((hu.faithful.incoming_iff ho hf).2 hincoming)

/-- Where an event is connected once, it is handed each number once. -/
theorem forwarded_eq_map {event p q : Nat} {us : List World}
    (h : ∀ u ∈ us, p < u.history.size → u.history.size ≤ q →
      ((u.signals.find? "tick").getD []).count (.event event) = 1) :
    forwarded event p q us =
      (us.filter fun u => p < u.history.size ∧ u.history.size ≤ q).map (·.application.tick) := by
  rw [← List.flatMap_pure_eq_map]
  refine List.flatMap_congr fun u hu => ?_
  obtain ⟨hu, hin⟩ := List.mem_filter.1 hu
  obtain ⟨hp, hq⟩ := of_decide_eq_true hin
  rw [h u hu hp hq]
  rfl

/-- The first number that is handed on is that of the first tick that is told since. -/
theorem head?_map_filter {p q : Nat} {us us' : List World} {u : World}
    (hbefore : ∀ x ∈ us, x.history.size ≤ p) (hp : p < u.history.size) (hq : u.history.size ≤ q) :
    (((us ++ u :: us').filter fun x => p < x.history.size ∧ x.history.size ≤ q).map
      (·.application.tick)).head? = some u.application.tick := by
  have hnone : us.filter (fun x => p < x.history.size ∧ x.history.size ≤ q) = [] := by
    refine List.filter_eq_nil_iff.2 fun x hx hin => ?_
    exact absurd (hbefore x hx) (Nat.not_le.2 (of_decide_eq_true hin).1)
  rw [List.filter_append, hnone, List.nil_append,
    List.filter_cons_of_pos (by simpa using ⟨hp, hq⟩)]
  rfl

/-- **Ticks are told in turn.** A host is told to do one thing after another, from when nothing has
happened yet, and its foreign code loads and unloads nothing, puts nothing in the queue and lets no
tick pass. Then each tick has the next number, works off the queue and hands its number on once, to
each handler that is connected by then. So an event of theirs is handed one number after the other
from when it begins to come in until it ceases to; and if it begins to come in while the queue is
worked off, the number of that tick first. -/
theorem ticks_in_turn (n : Nat) (f : Fault) (hw : w.Unheard) (hm : AllMeek n f es w) :
    let v := (run (respond n) es).after w
    let us := tellings (respond n) es w
    us.map (·.application.tick) = List.range' (w.application.tick + 1) (es.countP isTick) ∧
      (∀ pre post, es = pre ++ tick :: post →
        ∃ hs, Chimes n ((run (respond n) pre).after w) hs) ∧
      ∀ event before mid after, v.signalOf event = some "tick" →
        v.history.toList = before ++ .attach event :: (mid ++ after) → .detach event ∉ mid →
        let p := before.length
        let q := before.length + 1 + mid.length
        forwarded event p q us =
            List.range' (w.application.tick + 1 + us.countP fun u => u.history.size ≤ p)
              (us.countP fun u => p < u.history.size ∧ u.history.size ≤ q) ∧
          ∀ pre post, es = pre ++ tick :: post →
            let x := (run (respond n) pre).after w
            let u := ripe (respond n) x
            x.history.size ≤ p → p < u.history.size → u.history.size ≤ q →
              (forwarded event p q us).head? = some (x.application.tick + 1) := by
  intro v us
  obtain ⟨-, hrings⟩ := rings_run hw.ready hm
  change Rings w us v at hrings
  refine ⟨?_, fun pre post hes => ?_, ?_⟩
  · rw [hrings.numbers, length_tellings]
  · rw [hes] at hm
    obtain ⟨hpre, hmeek, -⟩ := allMeek_append hm
    exact (exists_chimes (rings_run hw.ready hpre).1 hmeek).2.2.2
  · intro event before mid after ho hh hd p q
    have hall : forwarded event p q us =
        (us.filter fun u => p < u.history.size ∧ u.history.size ≤ q).map (·.application.tick) :=
      forwarded_eq_map fun u hu hp hq => by
        obtain ⟨hready, -, hr⟩ := hrings.between u hu
        exact count_of_history hready hr ho hh hd hp hq
    refine ⟨hall.trans (map_filter_of_ordered hrings.numbers hrings.ordered), ?_⟩
    intro pre post hes x u hx hp hq
    have hm' : AllMeek n f (pre ++ tick :: post) w := hes ▸ hm
    obtain ⟨hpre, hmeek, -⟩ := allMeek_append hm'
    obtain ⟨hready, hbefore⟩ := rings_run hw.ready hpre
    obtain ⟨-, -, -, _, hchimes⟩ := exists_chimes hready hmeek
    have hus : us = tellings (respond n) pre w ++ u ::
        tellings (respond n) post ((Op.tick (respond n)).after x) := by
      change tellings (respond n) es w = _
      rw [hes, tellings_append]
      rfl
    rw [hall, hus, head?_map_filter (fun y hy => ?_) hp hq]
    · exact congrArg some hchimes.number
    · exact Nat.le_trans (hbefore.between y hy).2.2.size_le hx

/-! ### A run -/

section

variable {host host' : Responder} {signal : String} {args : List Datum} {h : Handler}

/-- What leaves the pulse as it is is answered under restraint like anywhere else. -/
theorem agreeAt_restrained {bell : String} {q : Request} (hq : q.tampers bell = false)
    (ha : AgreeAt (answerRequest (restrained bell f n) q) (answerRequest (respond n) q) w)
    (hp : ((answerRequest (respond n) q).after w).pulse = w.pulse) :
    AgreeAt (restrained bell f (n + 1) q) (respond (n + 1) q) w := by
  rw [← ha.2] at hp
  unfold AgreeAt restrained respond
  simp only [hq, Bool.false_eq_true, if_false, outcome_get_bind, after_get_bind,
    outcome_attempt_bind, after_attempt_bind, hp, if_true, outcome_ofExcept, after_ofExcept]
  exact ha

/-- An emission to one handler goes alike if that is called alike. -/
theorem agreeAt_emit_one (hf : w.signals.find? signal = some [h])
    (ha : AgreeAt (callHandler host args h) (callHandler host' args h) w) :
    AgreeAt (emit host signal args) (emit host' signal args) w := by
  obtain ⟨ho, hw⟩ := handlers_of_find? hf
  refine AgreeAt.bind (.refl (handlers signal) w) fun hs hhs => ?_
  obtain rfl := Except.ok.inj (ho.symm.trans hhs)
  rw [hw]
  refine AgreeAt.bind ?_ fun _ _ => .refl _ _
  exact (ha.attempt.bind fun r _ => .refl _ _).bind fun _ _ => .refl _ _

end

/-- A host with an event on the signal of ticks, which keeps what it is handed, and with an object
on that of messages, which has the event begin. -/
def watchful : World where
  objects := #[.absent, .callable
    ⟨"function", "<function>", fun _ => Program.request (.subscribe 0), none⟩]
  events := #[⟨"t", .signal "tick" "T" fun callback args => Program.order (.note callback args)⟩]
  signals := ⟨[("tick", []), ("message", [.object 1])]⟩

/-- There is a message, then a tick with a file in the queue, and then another one. -/
def rounds : List Errand :=
  [.post (.text "ann") "hello", .queue "a.lua", .tick, .tick]

theorem unheard_watchful : watchful.Unheard := by
  have handlers : ∀ {signal hs}, watchful.signals.find? signal = some hs →
      hs = [] ∨ hs = [.object 1] := by
    intro signal hs hf
    have hm := Roster.mem_of_find? hf
    simp only [watchful, List.mem_cons, Prod.mk.injEq, List.not_mem_nil, or_false] at hm
    exact hm.imp And.right And.right
  refine ⟨⟨rfl, rfl⟩, rfl, fun hf => ?_, fun hf => ?_, by decide⟩
  · rcases handlers hf with rfl | rfl <;> simp
  · rcases handlers hf with rfl | rfl <;> simp

/-- The object has the event begin, which changes nothing else. -/
theorem meek_post : (post (.text "ann") "hello").Meek 1 .tooDeep watchful := by
  refine AgreeAt.discard (AgreeAt.bind (.refl _ _) fun message _ => agreeAt_emit_one rfl ?_)
  refine AgreeAt.discard (AgreeAt.get (agreeAt_request ?_))
  set w : World := (newObject
    (.entity chatMessage [("author", .text "ann"), ("text", .text "hello")])).after watchful
  have hf : w.signals.find? "tick" = some [] := rfl
  have ho : w.signalOf 0 = some "tick" := rfl
  have begins := outcome_subscribe_of_new ho hf List.not_mem_nil
  refine agreeAt_restrained rfl (AgreeAt.bind ⟨?_, ?_⟩ fun _ _ => .refl _ _) ?_
  · exact (begins _).1.trans (begins _).1.symm
  · exact (begins _).2.trans (begins _).2.symm
  · change ((subscribe (respond 0) 0 >>= fun _ => pure Datum.none).after _).pulse = _
    rw [after_bind_of_ok (begins _).1, after_pure, (begins _).2]
    rfl

/-- Where no script is loaded, a tick does nothing but tell the event. -/
theorem meek_tick (hr : Reaches watchful w) (hl : w.session.loaded = false)
    (hf : (ripe (respond 1) w).signals.find? "tick" = some [.event 0]) :
    tick.Meek 1 .tooDeep w := by
  have passes (host : Responder) := applyPending_of_none host (u := w.ticking) fun p _ => by
    have hnone : w.ticking.current = none := if_neg (hl ▸ Bool.false_ne_true)
    simp [hnone]
  have hevent : (ripe (respond 1) w).events[0]? = watchful.events[0]? :=
    (hr.trans (reaches_ripe (follows_respond 1) w)).longer.getElem?_eq (by decide)
  refine ⟨ends_iff.2 ⟨_, (passes _).1⟩, ⟨?_, ?_⟩, agreeAt_emit_one hf (AgreeAt.get ?_)⟩
  · exact (passes _).1.trans (passes _).1.symm
  · exact (passes _).2.trans (passes _).2.symm
  · rw [hevent]
    exact agreeAt_order (agreeAt_restrained rfl (.refl _ _) rfl)

theorem allMeek_rounds : AllMeek 1 .tooDeep rounds watchful := by
  have follows := follows_op (follows_respond 1)
  set w₁ := ((post (.text "ann") "hello").op (respond 1)).after watchful
  set w₂ := ((queue "a.lua").op (respond 1)).after w₁ with h₂
  set w₃ := (tick.op (respond 1)).after w₂ with h₃
  have hr₂ : Reaches watchful w₂ := Reaches.trans (follows _ watchful) (follows _ w₁)
  have hr₃ : Reaches watchful w₃ := hr₂.trans (follows tick w₂)
  have hfacts : (w₂.session.loaded = false ∧
      (ripe (respond 1) w₂).signals.find? "tick" = some [.event 0]) ∧
      w₃.session.loaded = false ∧
      (ripe (respond 1) w₃).signals.find? "tick" = some [.event 0] := by decide +kernel
  obtain ⟨⟨hl₂, hf₂⟩, hl₃, hf₃⟩ := hfacts
  exact ⟨meek_post, .refl _ _, meek_tick hr₂ hl₂ hf₂, meek_tick hr₃ hl₃ hf₃, trivial⟩

/-- Both ticks are told, and handed on to the event. -/
theorem ticks_in_turn_of_rounds :
    let us := tellings (respond 1) rounds watchful
    us.map (·.application.tick) = [1, 2] ∧
      (∀ pre post, rounds = pre ++ tick :: post →
        ∃ hs, Chimes 1 ((run (respond 1) pre).after watchful) hs) ∧
      forwarded 0 0 1 us = [1, 2] := by
  intro us
  obtain ⟨hnumbers, hchimes, hforwarded⟩ :=
    ticks_in_turn 1 .tooDeep unheard_watchful allMeek_rounds
  have h : ((run (respond 1) rounds).after watchful).signalOf 0 = some "tick" ∧
      ((run (respond 1) rounds).after watchful).history.toList = [.attach 0] ∧
      us.countP (fun u => u.history.size ≤ 0) = 0 ∧
      us.countP (fun u => 0 < u.history.size ∧ u.history.size ≤ 1) = 2 := by decide +kernel
  obtain ⟨hsignal, hhistory, hbefore, hbetween⟩ := h
  obtain ⟨hrow, -⟩ := hforwarded 0 [] [] [] hsignal hhistory List.not_mem_nil
  refine ⟨hnumbers, hchimes, hrow.trans ?_⟩
  change List.range' (0 + 1 + us.countP fun u => u.history.size ≤ 0)
    (us.countP fun u => 0 < u.history.size ∧ u.history.size ≤ 1) = [1, 2]
  rw [hbefore, hbetween]
  rfl

end Errand

end ScriptHost
