import ScriptHost.Proofs.Course
import ScriptHost.Proofs.Registry
import ScriptHost.Proofs.Reports

/-!
# Accounts of faults

Faults about the life of a script come from loads and unloadings only: whatever foreign code asks, no
other fault of this kind is reported until one of these begins (`accounts_respond`). So what the steps
of a load or an unloading report of them adds up, step by step (`Op.Accounts`), and all subscriptions
end with a report for each that does not end well and no other (`exists_ended`).
-/
namespace ScriptHost

open Files (Path)

namespace Fault

/-- Whether a fault is about a script that cannot be loaded. -/
def isOfLoad : Fault → Bool
  | scriptMissing _ | scriptUnreadable .. | scriptFailed .. => true
  | _ => false

/-- Whether a fault is about the life of a script. -/
def isOfLife : Fault → Bool
  | unsubscribing .. => true
  | f => f.isOfLoad

end Fault

namespace World

variable {base w v u : World} {es es' : List LogEntry} {ds ds' : List Deed} {faults : List Fault}

/-- The log and the history of a world go on by so much. -/
structure Adds (w : World) (es : List LogEntry) (ds : List Deed) (v : World) : Prop where
  log : v.log.toList = w.log.toList ++ es
  history : v.history.toList = w.history.toList ++ ds

theorem Adds.refl (w : World) : Adds w [] [] w := ⟨by simp, by simp⟩

theorem Adds.trans (h : Adds w es ds v) (h' : Adds v es' ds' u) :
    Adds w (es ++ es') (ds ++ ds') u :=
  ⟨by rw [h'.log, h.log, List.append_assoc], by rw [h'.history, h.history, List.append_assoc]⟩

theorem Adds.deeds_eq (h : Adds w es ds v) (h' : v.history.toList = w.history.toList ++ ds') :
    ds = ds' :=
  List.append_cancel_left (h.history.symm.trans h')

theorem adds_of_eq (hl : v.log = w.log) (hh : v.history = w.history) : Adds w [] [] v :=
  ⟨by simp [hl], by simp [hh]⟩

theorem adds_log (w : World) (e : LogEntry) : Adds w [e] [] { w with log := w.log.push e } :=
  ⟨by simp, by simp⟩

theorem adds_record (w : World) (d : Deed) :
    Adds w [] [d] { w with history := w.history.push d } :=
  ⟨by simp, by simp⟩

/-- A load or an unloading has begun. -/
def Begun (base w : World) : Prop :=
  ∃ es ds, Adds base es ds w ∧ ∃ d ∈ ds, d.isStart

theorem Begun.adds (h : Begun base w) (h' : Adds w es ds v) : Begun base v := by
  obtain ⟨_, _, hb, d, hd, hs⟩ := h
  exact ⟨_, _, hb.trans h', d, List.mem_append_left _ hd, hs⟩

/-- The faults about the life of a script in a part of a log. -/
def lifeFaults (es : List LogEntry) : List Fault :=
  (es.filterMap LogEntry.fault).filter Fault.isOfLife

theorem lifeFaults_append (es es' : List LogEntry) :
    lifeFaults (es ++ es') = lifeFaults es ++ lifeFaults es' := by
  simp [lifeFaults, List.filterMap_append, List.filter_append]

/-- Certain faults about the life of a script have been reported and no others, unless a load or an
unloading has begun. -/
def Accounts (base : World) (faults : List Fault) (w : World) : Prop :=
  ∃ es ds, Adds base es ds w ∧ ((∀ d ∈ ds, d.isStart = false) → lifeFaults es = faults)

theorem Begun.accounts (h : Begun base w) (faults : List Fault) : Accounts base faults w := by
  obtain ⟨es, ds, hb, d, hd, hs⟩ := h
  exact ⟨es, ds, hb, fun hn => absurd ((hn d hd).symm.trans hs) Bool.false_ne_true⟩

theorem Accounts.refl (w : World) : Accounts w [] w :=
  ⟨[], [], .refl w, fun _ => rfl⟩

theorem Accounts.trans {faults' : List Fault} (h : Accounts w faults v) (h' : Accounts v faults' u) :
    Accounts w (faults ++ faults') u := by
  obtain ⟨es, ds, ha, hf⟩ := h
  obtain ⟨es', ds', ha', hf'⟩ := h'
  refine ⟨_, _, ha.trans ha', fun hn => ?_⟩
  rw [lifeFaults_append, hf fun d hd => hn d (List.mem_append_left _ hd),
    hf' fun d hd => hn d (List.mem_append_right _ hd)]

/-- Nothing comes of what enters no fault about the life of a script. -/
theorem Accounts.adds (h : Accounts base faults w) (h' : Adds w es ds v)
    (hn : lifeFaults es = []) : Accounts base faults v := by
  obtain ⟨es₀, ds₀, ha, hf⟩ := h
  refine ⟨_, _, ha.trans h', fun hd => ?_⟩
  rw [lifeFaults_append, hn, List.append_nil]
  exact hf fun d hd' => hd d (List.mem_append_left _ hd')

theorem Accounts.congr (h : Accounts base faults w) (hl : v.log = w.log)
    (hh : v.history = w.history) : Accounts base faults v :=
  h.adds (adds_of_eq hl hh) rfl

theorem Begun.congr (h : Begun base w) (hl : v.log = w.log) (hh : v.history = w.history) :
    Begun base v :=
  h.adds (adds_of_eq hl hh)

theorem free_begun (base : World) : Free (Begun base) where
  apart h hv := h.congr hv.log hv.history
  log e _ h := h.adds (adds_log _ e)
  clock _ h := h.congr rfl rfl
  queue _ h := h.congr rfl rfl
  session _ h := h.congr rfl rfl
  record _ h := h.adds (adds_record _ _)
  quiet _ h := h.adds (adds_record _ _)
  signals _ _ h := h.congr rfl rfl
  forget h := h.congr rfl rfl
  discovered _ h := h.congr rfl rfl
  welcome _ _ h := h.congr rfl rfl
  active _ h := h.congr rfl rfl

theorem free_accounts (base : World) (faults : List Fault) :
    Free (Accounts base faults) fun f => f.isOfLife = false where
  apart h hv := h.congr hv.log hv.history
  log {w} e he h := h.adds (adds_log w e) <| by
    cases hf : e.fault with
    | none => simp [lifeFaults, hf]
    | some f => simp [lifeFaults, hf, he f hf]
  clock _ h := h.congr rfl rfl
  queue _ h := h.congr rfl rfl
  session _ h := h.congr rfl rfl
  record _ h := h.adds (adds_record _ _) rfl
  quiet _ h := h.adds (adds_record _ _) rfl
  signals _ _ h := h.congr rfl rfl
  forget h := h.congr rfl rfl
  discovered _ h := h.congr rfl rfl
  welcome _ _ h := h.congr rfl rfl
  active _ h := h.congr rfl rfl

end World

namespace Op

open World

variable {α β : Type} {host : Responder} {base w : World} {faults faults' : List Fault}

/-! ### Whatever is asked -/

/-- A script that cannot listen to an event is not told of anything in its life. -/
theorem isOfLife_of_listen {name : String} {f : Fault}
    (h : (listen host name).outcome w = .error f) : f.isOfLife = false := by
  cases hk : w.eventBooks.known.find? name with
  | none =>
    cases h.symm.trans (listen_of_unknown hk host).1
    rfl
  | some event =>
    cases ha : w.eventBooks.active.contains name with
    | true =>
      cases h.symm.trans (listen_of_active hk ha host).1
      rfl
    | false =>
      cases hs : (subscribe host event).outcome w with
      | error g =>
        cases h.symm.trans (listen_of_error hk ha hs).1
        rfl
      | ok _ => cases h.symm.trans (listen_of_ok hk ha hs).1

theorem minds_begun (n : Nat) (base : World) :
    Minds (Only (Begun base)) (respond n) (respond n) :=
  have hh := alike_free_respond (free_begun base).bond n
  { answers := hh
    discover := alike_discover (free_begun base).bond.toOpenBond hh
    unsubscribeAll := alike_loose_unsubscribeAll (free_begun base).bond.toLooseBond hh }

/-- Where a load or an unloading begins, there is nothing to account for. -/
theorem carries_record_start {d : Deed} (hd : d.isStart) :
    Carries (Only (Accounts base faults)) (Only (Begun base)) (record d) (record d) := by
  rintro w _ ⟨rfl, es, ds, ha, -⟩
  exact ⟨rfl, rfl, _, _, ha.trans (adds_record w d), d, by simp, hd⟩

theorem Carries.accounts {m m' : Op α}
    (h : Carries (Only (Accounts base faults)) (Only (Begun base)) m m') :
    Alike (Only (Accounts base faults)) m m' := by
  intro w w' hw
  obtain ⟨ho, he, hb⟩ := h w w' hw
  exact ⟨ho, he, hb.accounts faults⟩

theorem alike_accounts_unload (n : Nat) :
    Alike (Only (Accounts base faults)) (unload (respond n)) (unload (respond n)) := by
  have L := (free_begun base).lifeBond
  have hm := minds_begun n base
  have leave : Carries (Only (Accounts base faults)) (Only (Begun base)) (takeLeave (respond n))
      (takeLeave (respond n)) :=
    (carries_record_start rfl).bind fun _ => alike_fire L hm.answers _ _
  have go : Carries (Only (Accounts base faults)) (Only (Begun base)) (letGo (respond n))
      (letGo (respond n)) :=
    leave.bind fun _ => (alike_tell L hm.answers _ fun _ _ => trivial).bind fun _ =>
      (alike_endSubscriptions L hm).bind fun _ => alike_vacate L
  have B := (free_accounts base faults).bond.toBond
  refine alike_get B (fun _ => rfl) fun w => .ite ?_ (alike_log B _ _ _)
  exact (go.bind fun _ => alike_log L.toBond _ _ _).accounts

theorem alike_accounts_load (n : Nat) (path : Datum) :
    Alike (Only (Accounts base faults)) (load (respond n) path) (load (respond n) path) := by
  have L := (free_begun base).lifeBond
  refine alike_load_of (free_accounts base faults).bond.toBond (alike_accounts_unload n)
    (fun path => ?_) path
  have bring := alike_bringUp L (minds_begun n base) path
  exact (carries_loadPath L (carries_record_start rfl) bring).accounts

/-- **No other fault is about the life of a script.** Whatever foreign code asks, a fault of this kind
is reported only once a load or an unloading has begun. -/
theorem accounts_respond (n : Nat) (base : World) (faults : List Fault) :
    (respond n).Alike (Only (Accounts base faults)) (respond n) := by
  induction n with
  | zero => exact fun _ => alike_throw _
  | succ n ih =>
    have F := (free_accounts base faults).bond
    have governs : Governs (Only (Accounts base faults)) (respond n) (respond n)
        fun f => f.isOfLife = false :=
      { answers := ih
        listen := alike_loose_listen F.toLooseBond F.listen ih
        emit := alike_emit F.toLooseBond.twins F.toBond ih
        count := fun signal => (alike_handlers F.toLooseBond.twins signal).bind fun _ => alike_pure _
        failed := fun _ _ => rfl
        refused := fun _ _ _ h => isOfLife_of_listen h
        load := alike_accounts_load n
        unload := alike_accounts_unload n
        discover := alike_discover F.toOpenBond ih
        unsubscribeAll := alike_loose_unsubscribeAll F.toLooseBond ih }
    exact fun q => alike_answerRequest F.toBond governs (fun _ => F.toRestless)
      (alike_loose_answer F.toLooseBond ih)

theorem minds_accounts (n : Nat) (base : World) (faults : List Fault) :
    Minds (Only (Accounts base faults)) (respond n) (respond n) :=
  have F := (free_accounts base faults).bond
  have hh := accounts_respond n base faults
  { answers := hh
    discover := alike_discover F.toOpenBond hh
    unsubscribeAll := alike_loose_unsubscribeAll F.toLooseBond hh }

/-! ### Step by step -/

/-- An operation reports certain faults about the life of a script and no others, unless a load or an
unloading begins. -/
def Accounts (m : Op α) (w : World) (faults : List Fault) : Prop :=
  World.Accounts w faults (m.after w)

theorem accounts_of_alike {m : Op α}
    (h : ∀ base, Alike (Only (World.Accounts base [])) m m) (w : World) : m.Accounts w [] :=
  (h w w w ⟨rfl, .refl w⟩).2.2

theorem Accounts.bind_of_ok {m : Op α} {k : α → Op β} {a : α} (h : m.outcome w = .ok a)
    (hm : m.Accounts w faults) (hk : (k a).Accounts (m.after w) faults') :
    (m >>= k).Accounts w (faults ++ faults') := by
  rw [Accounts, after_bind_of_ok h]
  exact World.Accounts.trans hm hk

/-- Where no load and no unloading begins, these faults are all that is reported of the kind. -/
theorem Accounts.reports {m : Op α} (h : m.Accounts w faults)
    (hn : ∀ d ∈ m.deeds w, d.isStart = false) : (m.reports w).filter Fault.isOfLife = faults := by
  obtain ⟨es, ds, ha, hf⟩ := h
  have hd : m.deeds w = ds := by
    rw [deeds, ha.history, List.drop_left' (by simp)]
  have hr : m.reports w = es.filterMap LogEntry.fault := by
    rw [Op.reports, ha.log, List.drop_left' (by simp)]
  rw [hr]
  exact hf (hd ▸ hn)

theorem accounts_log (level : LogLevel) (logger text : String) (fault : Option Fault) (w : World) :
    (log level logger text fault).Accounts w (fault.toList.filter Fault.isOfLife) :=
  ⟨[⟨level, logger, text, fault⟩], [], adds_log w _, fun _ => by cases fault <;> rfl⟩

variable (n : Nat)

theorem accounts_hear (f : Fault) (w : World) : (hear (respond n) f).Accounts w [] := by
  refine accounts_of_alike (fun base => ?_) w
  have B := (free_accounts base []).bond.toBond
  refine alike_get B (fun _ => rfl) fun w => .ite ?_ (alike_pure _)
  refine (alike_newObject B _).bind fun place => alike_forM (fun listener => ?_) _
  refine (alike_callObject B (accounts_respond n base []) listener _).attempt.bind fun r => ?_
  cases r with
  | ok _ => exact alike_pure _
  | error _ => exact alike_log B _ _ _

/-- A fault that is reported is accounted for once, whatever listeners do when they hear of it. -/
theorem accounts_report (f : Fault) (level : LogLevel) (w : World) :
    (report (respond n) f level).Accounts w ([f].filter Fault.isOfLife) := by
  rw [report_eq]
  have h := (accounts_log level "luahost.dispatch" f.message (some f) w).bind_of_ok
    (k := fun _ => hear (respond n) f) rfl (accounts_hear n f _)
  rwa [List.append_nil] at h

theorem accounts_reports (level : LogLevel) (faults : List Fault) (w : World) :
    (faults.forM fun f => report (respond n) f level).Accounts w (faults.filter Fault.isOfLife) := by
  induction faults generalizing w with
  | nil => exact .refl w
  | cons f faults ih =>
    obtain ⟨_, hr⟩ := ends_iff.1 (ends_report (respond n) f level w)
    have h := (accounts_report n f level w).bind_of_ok
      (k := fun _ => faults.forM fun f => report (respond n) f level) hr (ih _)
    rwa [← List.filter_append] at h

theorem accounts_fire (phase : Phase) (args : List Datum) (w : World) :
    (fire (respond n) phase args).Accounts w [] :=
  accounts_of_alike (fun base =>
    alike_fire (free_accounts base []).lifeBond (accounts_respond n base []) phase args) w

theorem accounts_tell (name : String) (w : World) : (tell (respond n) name).Accounts w [] :=
  accounts_of_alike (fun base => alike_tell (free_accounts base []).lifeBond
    (accounts_respond n base []) name fun _ _ => rfl) w

theorem accounts_moveIn (w : World) : (moveIn (respond n)).Accounts w [] := by
  refine accounts_of_alike (fun base => ?_) w
  have L := (free_accounts base []).lifeBond
  refine (alike_buildEnvironment L (minds_accounts n base [])).bind fun home => ?_
  refine (alike_modifySession L _).bind fun _ => (alike_record L rfl).bind fun _ => ?_
  exact (alike_newObject L.toBond _).bind fun _ => alike_fire L (accounts_respond n base []) _ _

theorem accounts_runText (path : Path) (source : String) (w : World) :
    (runText (respond n) path source).Accounts w [] :=
  accounts_of_alike (fun base => alike_runText (free_accounts base []).lifeBond
    (accounts_respond n base []) path source) w

theorem accounts_becomeLoaded (path : Path) (w : World) :
    (becomeLoaded (respond n) path).Accounts w [] :=
  accounts_of_alike (fun base => alike_becomeLoaded (free_accounts base []).lifeBond
    (accounts_respond n base []) path fun _ _ => rfl) w

theorem accounts_unsubscribeAll (w : World) : (unsubscribeAll (respond n)).Accounts w [] :=
  accounts_of_alike (fun base => (minds_accounts n base []).unsubscribeAll) w

end Op

/-! ### Ending subscriptions -/

theorem Unsubscribes.isOfLife {host : Responder} {w v : World} {events : List (String × Nat)}
    {faults : List Fault} (h : Unsubscribes host w events faults v) :
    ∀ f ∈ faults, f.isOfLife ∧ f.isOfLoad = false := by
  induction h with
  | none => nofun
  | well _ _ ih => exact ih
  | badly _ _ ih => exact List.forall_mem_cons.2 ⟨⟨rfl, rfl⟩, ih⟩

theorem Roster.eq_empty_of_names {α : Type} {r : Roster α} (h : r.names = []) : r = {} :=
  congrArg Roster.mk (List.map_eq_nil_iff.1 h)

/-- What scripts listen to begins and ceases without a call back into the registry. -/
def World.Aloof (host : Responder) (w : World) : Prop :=
  ∀ x ∈ w.eventBooks.active.entries, ∃ d, w.events[x.2]? = some d ∧ d.Aloof host

namespace Op

open World

/-- How all subscriptions end, each of them once and in order, with a fault for each that does not end
well. They are forgotten then, and listeners hear of the faults. -/
structure Ended (host : Responder) (u : World) (faults : List Fault) (ceased late : List Deed) :
    Prop where
  ends : (endSubscriptions host).Ends u
  each : ∃ v, Unsubscribes host ((record .teardown).after u) u.eventBooks.active.entries faults v
  leads : Leads u [.teardown] (.teardown :: (ceased ++ .forget :: late))
    ((endSubscriptions host).after u)
  traffic : ceased.filter Deed.isQuiet = u.eventBooks.active.entries.map fun x => .detach x.2
  accounts : (endSubscriptions host).Accounts u faults

/-- Subscriptions end, whatever is to become of each, if events do not call back. -/
theorem exists_ended (n : Nat) {u : World} (ha : u.Aloof (respond n)) :
    ∃ faults ceased late, Ended (respond n) u faults ceased late := by
  have hh := follows_respond n
  let t := (record .teardown).after u
  have hall : t.Aloof (respond n) := ha
  obtain ⟨faults, hf, hu, hn⟩ := unsubscribes_endFrom hall rfl (Nat.zero_add _)
  rw [List.drop_zero] at hu hn
  set t₁ := (endFrom (respond n) t.eventBooks.active.entries.length
    t.eventBooks.active.entries.length 0).after t
  obtain ⟨ho, ha'⟩ := unsubscribeAll_of_ok hf
  have hafter : ((unsubscribeAll (respond n)).after t).history = t₁.history.push .forget :=
    congrArg World.history ha'
  obtain ⟨ds, hl, hforget⟩ := exists_leads_unsubscribeAll hh t
  obtain ⟨_, ceased, rfl⟩ := hforget (ends_iff.2 ⟨_, ho⟩)
  -- What was done before it was all forgotten is what the books say of each event.
  have hhist : t₁.history.toList = t.history.toList ++ ceased := by
    have h := hl.history
    rw [hafter, Array.toList_push, ← List.append_assoc] at h
    exact (List.append_inj' h rfl).1
  have htraffic : ceased.filter Deed.isQuiet =
      u.eventBooks.active.entries.map fun x => .detach x.2 := by
    have h := hn.dealings
    rw [dealings, hhist, List.filter_append] at h
    exact List.append_cancel_left h
  let tell := fun faults : List Fault => faults.forM fun f => report (respond n) f .error
  obtain ⟨late, hlate⟩ := follows_forM (fun f => follows_report hh f .error) faults
    ((unsubscribeAll (respond n)).after t)
  have hfirst : Leads u [.teardown] [.teardown] t :=
    leads_enter u u.session .teardown rfl rfl rfl trivial
  have hall := hfirst.trans (hl.trans hlate)
  have hend : (endSubscriptions (respond n)).after u = (unsubscribeAll (respond n) >>= tell).after t :=
    rfl
  have haccounts := (accounts_unsubscribeAll n t).bind_of_ok (k := tell) ho
    (accounts_reports n .error faults _)
  rw [List.filter_eq_self.2 fun f hf => (hu.isOfLife f hf).1, List.nil_append] at haccounts
  refine ⟨faults, ceased, late, ?_, ⟨t₁, hu⟩, ?_, htraffic, ?_⟩
  · exact (ends_endSubscriptions_iff u).2 (ends_iff.2 ⟨_, ho⟩)
  · rw [hend, after_bind_of_ok ho]
    simpa [tell] using hall
  · rw [Accounts, hend]
    exact ((World.Accounts.refl u).adds (adds_record u .teardown) rfl).trans haccounts

/-- Where no load and no unloading begins, each event ceases once and nothing else is done before it is
all forgotten. -/
theorem Ended.ceased_eq {u : World} {ceased late : List Deed}
    (h : Ended host u faults ceased late) (hn : ∀ d ∈ ceased ++ .forget :: late, d.isStart = false) :
    (ceased = u.eventBooks.active.entries.map fun x => .detach x.2) ∧ ∀ d ∈ late, d.isQuiet := by
  have alone : Woven.Alone [.teardown] (.teardown :: (ceased ++ .forget :: late)) :=
    Woven.alone_of_none (List.forall_mem_cons.2 ⟨rfl, hn⟩) _
  have hrest := h.leads.woven.filter_quiet_eq alone
  simp only [List.filter_cons_of_pos (p := fun d : Deed => !d.isQuiet) (a := .teardown) rfl,
    List.filter_append, List.filter_nil, List.cons.injEq, true_and, List.append_eq_nil_iff,
    List.filter_eq_nil_iff] at hrest
  have hquiet : ∀ d ∈ ceased, d.isQuiet := fun d hd => by simpa using hrest.1 d hd
  refine ⟨?_, fun d hd => by simpa using hrest.2 d (List.mem_cons_of_mem _ hd)⟩
  rw [← h.traffic, List.filter_eq_self.2 hquiet]

end Op

end ScriptHost
