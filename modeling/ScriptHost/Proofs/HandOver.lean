import ScriptHost.Proofs.Answers
import ScriptHost.Proofs.Course

/-!
# From one script to the next

What happens to the script of an environment when another is loaded, up to where the text of the other
begins to run (`enter`). If it is loaded, it is told that it is unloaded and its subscriptions end
first, whatever foreign code does meanwhile. If it is still being loaded, it is neither told nor does
anything of it end (`clean_iff`).
-/
namespace ScriptHost

open Files (Path)

/-- The script of an environment is told that it is unloaded, once, and its subscriptions end then:
none of the events it listened to is listened to or connected at the end of a stretch, unless this
has begun anew since. -/
structure Clean (old : Nat) (ds : List Deed) (w w' : World) : Prop where
  told : ds.count (.tell (some old) "OnUnload") = 1
  ended : ∃ pre post, ds = pre ++ .teardown :: post ∧ .tell (some old) "OnUnload" ∈ pre ∧
    ∀ name ∈ listening w.eventBooks.active.names pre,
      (name ∈ w'.eventBooks.active.names → .listen name ∈ post) ∧
      ∀ event, w'.eventBooks.known.find? name = some event → w'.Connected event →
        .attach event ∈ post

/-! ### Who is told -/

theorem Deed.isFarewell_iff {d : Deed} : d.isFarewell ↔ ∃ home, d = .tell home "OnUnload" := by
  cases d <;> simp [Deed.isFarewell]

/-- A script is told that it is unloaded before what is held changes. -/
def TellsFirst : List Deed → Prop
  | [] => True
  | d :: ds => d.isFarewell ∨ ((∀ s : Holding, s.step d = s) ∧ TellsFirst ds)

/-- There is a new environment before anything is loaded and before a script is told that it is
unloaded. -/
def OccupiesFirst : List Deed → Prop
  | [] => True
  | d :: ds => (∃ home, d = .occupy home) ∨ (d.isFarewell = false ∧ d ≠ .succeed ∧ OccupiesFirst ds)

theorem tellsFirst_of_isPlain {ds : List Deed} (h : ∀ d ∈ ds, d.isPlain) : TellsFirst ds := by
  induction ds with
  | nil => trivial
  | cons d ds ih =>
    exact .inr ⟨fun s => s.step_of_aside (.inl (h d (by simp))), ih fun e he => h e (by simp [he])⟩

theorem tellsFirst_append {ds : List Deed} (h : ∀ d ∈ ds, d.isPlain) (told : ∃ d ∈ ds, d.isFarewell)
    (es : List Deed) : TellsFirst (ds ++ es) := by
  induction ds with
  | nil => exact absurd told (by simp)
  | cons d ds ih =>
    by_cases hd : d.isFarewell
    · exact .inl hd
    · obtain ⟨e, he, hf⟩ := told
      rcases List.mem_cons.1 he with rfl | he
      · exact absurd hf hd
      · exact .inr ⟨fun s => s.step_of_aside (.inl (h d (by simp))),
          ih (fun e he => h e (by simp [he])) ⟨e, he, hf⟩⟩

theorem occupiesFirst_append {ds es : List Deed} (h : ∀ d ∈ ds, d.isRising)
    (he : OccupiesFirst es) : OccupiesFirst (ds ++ es) := by
  induction ds with
  | nil => exact he
  | cons d ds ih =>
    have hd := h d (by simp)
    refine .inr ⟨Deed.isFarewell_of_isRising hd, ?_, ih fun e he => h e (by simp [he])⟩
    rintro rfl
    exact Bool.false_ne_true hd

theorem Block.tellsFirst {block : List Deed} (hb : Block (.unload :: block)) : TellsFirst block := by
  cases hb with
  | unload hplain => exact tellsFirst_of_isPlain hplain
  | unloaded hplain told => exact tellsFirst_append hplain told _

theorem Block.occupiesFirst {path : Path} {block : List Deed} (hb : Block (.load path :: block)) :
    OccupiesFirst block := by
  cases hb with
  | loaded ha =>
    exact occupiesFirst_append (fun d hd => Deed.isRising_of_isSteady (ha d hd)) (.inl ⟨_, rfl⟩)
  | failed h => exact occupiesFirst_append h (.inr ⟨rfl, nofun, trivial⟩)
  | aborted h => exact occupiesFirst_append h (.inr ⟨rfl, nofun, trivial⟩)

namespace Holding

variable {s : Holding} {d : Deed} {home : Nat}

/-- An environment is the one from before unless it has just been taken. -/
theorem environment_of_step (hd : d ≠ .occupy home) (h : (s.step d).environment = some home) :
    s.environment = some home := by
  cases d with
  | occupy new => exact absurd (congrArg Deed.occupy (Option.some.inj h)) hd
  | fail => cases h
  | vacate => cases h
  | _ => exact h

/-- Nothing becomes loaded but by a load that succeeds. -/
theorem loaded_step (hd : d ≠ .succeed) (h : s.loaded = false) : (s.step d).loaded = false := by
  cases d with
  | succeed => exact absurd rfl hd
  | vacate => rfl
  | _ => exact h

end Holding

namespace Woven

variable {own ds : List Deed} {s : Holding} {old : Nat}

/-- A script that is loaded stays what is held until it is told that it is unloaded. -/
theorem told (h : Woven own ds) (ha : s.AdmitsAll ds) (hs : s.environment = some old)
    (hl : s.loaded = true) (ho : TellsFirst own) :
    .tell (some old) "OnUnload" ∈ ds ∨ (s.replay ds = s ∧ ∀ d ∈ own, d.isFarewell = false) := by
  induction h generalizing s with
  | nil => exact .inr ⟨rfl, nofun⟩
  | @own d own ds _ ih =>
    by_cases hd : d.isFarewell
    · obtain ⟨home, rfl⟩ := Deed.isFarewell_iff.1 hd
      have hhome : some old = home := hs.symm.trans ha.1
      exact .inl (by simp [hhome])
    · obtain ⟨hstep, ho⟩ := ho.resolve_left hd
      rcases ih (hstep s ▸ ha.2) hs hl ho with hm | ⟨hr, hown⟩
      · exact .inl (List.mem_cons_of_mem _ hm)
      · refine .inr ⟨by rw [Holding.replay_cons, hstep, hr], fun e he => ?_⟩
        rcases List.mem_cons.1 he with rfl | he
        · exact Bool.eq_false_iff.2 hd
        · exact hown e he
  | @quiet d own ds hd _ ih =>
    have hstep := s.step_of_aside (d := d) (.inr hd)
    rcases ih (hstep ▸ ha.2) hs hl ho with hm | ⟨hr, hown⟩
    · exact .inl (List.mem_cons_of_mem _ hm)
    · exact .inr ⟨by rw [Holding.replay_cons, hstep, hr], hown⟩
  | @nested d block es own ds hb _ _ ihi ih =>
    have hstep : s.step d = s := by cases hb <;> rfl
    have hes := Holding.admitsAll_append.1 (hstep ▸ ha.2)
    -- Only an unloading can begin where something is loaded.
    have htells : TellsFirst block := by
      cases d with
      | unload => exact hb.tellsFirst
      | load path => exact absurd (ha.1.symm.trans hl) Bool.false_ne_true
      | _ => cases hb
    rcases ihi hes.1 hs hl htells with hm | ⟨hr, _⟩
    · exact .inl (by simp [hm])
    · rcases ih (hr ▸ hes.2) hs hl ho with hm | ⟨hr', hown⟩
      · exact .inl (by simp [hm])
      · exact .inr ⟨by rw [Holding.replay_cons, hstep, Holding.replay_append, hr, hr'], hown⟩

/-- A script that is not loaded is not told that it is unloaded, as long as all environments that the
session gets are new. -/
theorem not_told (h : Woven own ds) (ha : s.AdmitsAll ds) (hnew : .occupy old ∉ ds)
    (hs : s.environment = some old → s.loaded = false ∧ OccupiesFirst own) :
    .tell (some old) "OnUnload" ∉ ds ∧
      ((s.replay ds).environment = some old → s.environment = some old ∧
        (s.replay ds).loaded = false) := by
  induction h generalizing s with
  | nil => exact ⟨List.not_mem_nil, fun he => ⟨he, (hs he).1⟩⟩
  | @own d own ds _ ih =>
    have hd : d ≠ .occupy old := fun hd => hnew (by simp [hd])
    obtain ⟨hm, hr⟩ := ih ha.2 (fun h => hnew (List.mem_cons_of_mem _ h)) fun he => by
      obtain ⟨hl, ho⟩ := hs (Holding.environment_of_step hd he)
      rcases ho with ⟨home, rfl⟩ | ⟨_, hsucceed, ho⟩
      · exact absurd (congrArg Deed.occupy (Option.some.inj he)) hd
      · exact ⟨Holding.loaded_step hsucceed hl, ho⟩
    refine ⟨fun hmem => ?_, fun he => ?_⟩
    · rcases List.mem_cons.1 hmem with rfl | hmem
      · rcases (hs ha.1).2 with ⟨home, h⟩ | ⟨hf, _⟩
        · cases h
        · cases hf
      · exact hm hmem
    · exact ⟨Holding.environment_of_step hd (hr he).1, (hr he).2⟩
  | @quiet d own ds hd _ ih =>
    have hstep := s.step_of_aside (d := d) (.inr hd)
    obtain ⟨hm, hr⟩ := ih (hstep ▸ ha.2) (fun h => hnew (List.mem_cons_of_mem _ h)) hs
    refine ⟨fun hmem => ?_, by rw [Holding.replay_cons, hstep]; exact hr⟩
    rcases List.mem_cons.1 hmem with rfl | hmem
    · cases hd
    · exact hm hmem
  | @nested d block es own ds hb _ _ ihi ih =>
    have hstep : s.step d = s := by cases hb <;> rfl
    have hes := Holding.admitsAll_append.1 (hstep ▸ ha.2)
    -- Only a load can begin where nothing is loaded.
    obtain ⟨hm, hr⟩ := ihi hes.1 (fun h => hnew (by simp [h])) fun he => by
      refine ⟨(hs he).1, ?_⟩
      cases d with
      | load path => exact hb.occupiesFirst
      | unload => exact absurd ((hs he).1.symm.trans ha.1) Bool.false_ne_true
      | _ => cases hb
    obtain ⟨hm', hr'⟩ := ih hes.2 (fun h => hnew (by simp [h])) fun he =>
      ⟨(hr he).2, (hs (hr he).1).2⟩
    refine ⟨fun hmem => ?_, fun he => ?_⟩
    · rcases List.mem_cons.1 hmem with rfl | hmem
      · cases hb
      · rcases List.mem_append.1 hmem with hmem | hmem
        · exact hm hmem
        · exact hm' hmem
    · rw [Holding.replay_cons, hstep, Holding.replay_append] at he ⊢
      exact ⟨(hr (hr' he).1).1, (hr' he).2⟩

end Woven

namespace Op

open World

variable {host : Responder}

/-! ### Up to where the text begins -/

/-- A load up to where the text begins to run. -/
def enter (host : Responder) (path : Path) : Op String := do
  if (← get).session.loaded then unload host
  record (.load path)
  prepareScript host path

theorem enter_of_not_loaded (host : Responder) (path : Path) {w : World}
    (hl : w.session.loaded = false) :
    (enter host path).outcome w = (prepareScript host path).outcome (opening path w) ∧
      (enter host path).after w = (prepareScript host path).after (opening path w) := by
  unfold enter
  simp only [outcome_get_bind, after_get_bind, hl, Bool.false_eq_true, if_false]
  exact ⟨rfl, rfl⟩

theorem enter_of_loaded (path : Path) {w : World} (hl : w.session.loaded = true)
    (hu : (unload host).outcome w = .ok ()) :
    (enter host path).outcome w =
        (prepareScript host path).outcome (opening path ((unload host).after w)) ∧
      (enter host path).after w =
        (prepareScript host path).after (opening path ((unload host).after w)) := by
  unfold enter
  simp only [outcome_get_bind, after_get_bind, hl, if_true]
  exact ⟨outcome_bind_of_ok hu _, after_bind_of_ok hu _⟩

theorem ends_unload_of_enter {path : Path} {w : World} (hl : w.session.loaded = true)
    (h : (enter host path).Ends w) : (unload host).outcome w = .ok () := by
  obtain ⟨text, h⟩ := ends_iff.1 h
  unfold enter at h
  simp only [outcome_get_bind, hl, if_true] at h
  obtain ⟨_, hu, _, _⟩ := exists_of_bind_ok h
  exact hu

/-- Where nothing is loaded, what is left of `enter` is to open a new environment. -/
theorem exists_leads_opening (hh : host.Follows) {path : Path} {w : World}
    (hl : w.session.loaded = false) (h : (prepareScript host path).Ends (opening path w)) :
    ∃ functions home hooks ds, w.homes.size ≤ home ∧
      Leads w (.load path :: beginning functions home hooks) ds
        ((prepareScript host path).after (opening path w)) := by
  obtain ⟨text, h⟩ := ends_iff.1 h
  obtain ⟨_, hm, _, ha⟩ := exists_of_bind_ok h
  obtain ⟨home, hb⟩ := ends_iff.1 ((ends_moveIn_iff host _).1 (ends_iff.2 ⟨_, hm⟩))
  obtain ⟨functions, hooks, hentrance⟩ := exists_entrance hh hb
  change (prepareScript host path).after (opening path w) = _ at ha
  rw [ha, after_readSource]
  exact ⟨functions, home, hooks, _, hentrance.new, (leads_opening path hl).trans hentrance.does.leads⟩

theorem occupiesFirst_beginning (path : Path) (functions : List String) (home : Nat)
    (hooks : List Nat) : OccupiesFirst (.load path :: beginning functions home hooks) := by
  refine .inr ⟨rfl, nofun, occupiesFirst_append (fun d hd => ?_) (.inl ⟨home, rfl⟩)⟩
  exact Deed.isRising_of_isSteady (isSteady_make d hd)

/-- A script that is still being loaded is not told anything when another takes its place. -/
theorem not_told_of_not_loaded (hh : host.Follows) {path : Path} {w : World} {old : Nat}
    (ht : w.Tidy) (hold : w.session.environment = some old) (hl : w.session.loaded = false)
    (he : (enter host path).Ends w) :
    .tell (some old) "OnUnload" ∉ (enter host path).deeds w := by
  obtain ⟨ho, ha⟩ := enter_of_not_loaded host path hl
  obtain ⟨text, he⟩ := ends_iff.1 he
  obtain ⟨functions, home, hooks, ds, hnew, h⟩ :=
    exists_leads_opening hh hl (ends_iff.2 ⟨text, ho.symm.trans he⟩)
  rw [← ha] at h
  have hd : (enter host path).deeds w = ds := h.deeds_eq.symm
  have hhoused : old < w.homes.size := ht.housed hold
  have hoccupied : .occupy old ∉ ds := by
    intro hm
    rcases h.occupied hm with hm | hm
    · have hsame : old = home := by simpa [beginning] using hm
      omega
    · omega
  rw [hd]
  exact (h.woven.not_told h.admits hoccupied fun _ =>
    ⟨hl, occupiesFirst_beginning path functions home hooks⟩).1

/-! ### Unloading before it -/

/-- Subscriptions that end are forgotten, after the deed that says so. -/
theorem exists_leads_endSubscriptions (hh : host.Follows) {w : World}
    (he : (endSubscriptions host).Ends w) : ∃ ds,
      Leads w [.teardown] (.teardown :: ds) ((endSubscriptions host).after w) ∧ .forget ∈ ds := by
  obtain ⟨ds, h, _⟩ := begins_endSubscriptions hh w
  have hd : (endSubscriptions host).deeds w = .teardown :: ds := h.deeds_eq.symm
  have hforget := forget_mem_deeds hh he
  rw [hd] at hforget
  exact ⟨ds, h, (List.mem_cons.1 hforget).resolve_left nofun⟩

/-- The world in which the subscriptions of a script that has been told end. -/
def toldIn (host : Responder) (w : World) : World :=
  (tell host "OnUnload").after (leaving host w)

theorem after_unload_of_ok {w : World} (hl : w.session.loaded = true)
    (hu : (unload host).outcome w = .ok ()) : (endSubscriptions host).Ends (toldIn host w) ∧
      ∃ text, (unload host).after w = (info "luahost.session" text).after
        (vacate.after ((endSubscriptions host).after (toldIn host w))) := by
  obtain ⟨text, ho, ha⟩ := unload_of_loaded host hl
  rw [ho] at hu
  obtain ⟨_, hg, _, ha'⟩ := exists_of_bind_ok hu
  obtain ⟨_, _, hg, hga⟩ := exists_of_bind_ok hg
  obtain ⟨_, _, hg, hga'⟩ := exists_of_bind_ok hg
  obtain ⟨_, hend, _, hga''⟩ := exists_of_bind_ok hg
  refine ⟨ends_iff.2 ⟨_, hend⟩, text, ?_⟩
  rw [ha, ha', letGo, hga, hga', hga'']
  rfl

/-- An unloading that ends in a value, split where the subscriptions of the script begin to end. They
are forgotten after that. -/
theorem exists_split_of_unload (hh : host.Follows) {w : World} (hl : w.session.loaded = true)
    (hu : (unload host).outcome w = .ok ()) :
    ∃ (hooks : List Nat) (asked : Option Nat) (pre post : List Deed),
      Leads w (.unload :: (hooks.map (.hook .unloaded) ++ [.tell asked "OnUnload"])) pre
        (toldIn host w) ∧
      Leads (toldIn host w) [.teardown, .vacate] (.teardown :: post) ((unload host).after w) ∧
      .forget ∈ post := by
  obtain ⟨hend, text, ha⟩ := after_unload_of_ok hl hu
  obtain ⟨hooks, hbegins, _, _⟩ := begins_takeLeave hh w hl
  have hpre := hbegins.leads.leads.trans (does_tell hh "OnUnload" (leaving host w)).leads
  obtain ⟨ds, hteardown, hforget⟩ := exists_leads_endSubscriptions hh hend
  obtain ⟨es, hvacate⟩ := does_vacate ((endSubscriptions host).after (toldIn host w))
  obtain ⟨fs, hinfo⟩ := (follows_log .info "luahost.session" text none).does
    (vacate.after ((endSubscriptions host).after (toldIn host w)))
  refine ⟨hooks, _, _, ds ++ es ++ fs, hpre, ?_, by simp [hforget]⟩
  rw [ha]
  exact (hteardown.trans hvacate).trans hinfo

/-- What scripts have listened to is over once it is forgotten, unless it has begun anew. -/
theorem ended_of_leads {u w' : World} {own post : List Deed} (ht : u.Tidy)
    (h : Leads u own (.teardown :: post) w') (hforget : .forget ∈ post) {name : String}
    (hn : name ∈ u.eventBooks.active.names) :
    (name ∈ w'.eventBooks.active.names → .listen name ∈ post) ∧
      ∀ event, w'.eventBooks.known.find? name = some event → w'.Connected event →
        .attach event ∈ post := by
  constructor
  · intro hactive
    rw [h.active] at hactive
    rcases mem_listening_iff.1 hactive with hs | ⟨_, hkept⟩
    · exact (List.mem_cons.1 hs.mem).resolve_left nofun
    · exact absurd (List.mem_cons_of_mem _ hforget) hkept
  · intro event hknown hconnected
    obtain ⟨x, hx, rfl⟩ := List.mem_map.1 hn
    have hsame := Roster.find?_of_prefix h.grown.known (ht.known hx)
    obtain rfl : x.2 = event := Option.some.inj (hsame.symm.trans hknown)
    have hm := (h.links ht).dropped (List.mem_cons_of_mem _ hforget) x hx hconnected
    exact (List.mem_cons.1 hm).resolve_left nofun

/-- A script that is loaded is told, at least once, and its subscriptions end. -/
theorem clean_of_loaded (hh : host.Follows) {path : Path} {w : World} {old : Nat} (ht : w.Tidy)
    (hold : w.session.environment = some old) (hl : w.session.loaded = true)
    (he : (enter host path).Ends w)
    (once : ((enter host path).deeds w).count (.tell (some old) "OnUnload") ≤ 1) :
    Clean old ((enter host path).deeds w) w ((enter host path).after w) := by
  have hu := ends_unload_of_enter hl he
  obtain ⟨ho, ha⟩ := enter_of_loaded path hl hu
  obtain ⟨text, he⟩ := ends_iff.1 he
  obtain ⟨hooks, asked, pre, post, hpre, hpost, hforget⟩ := exists_split_of_unload hh hl hu
  obtain ⟨functions, home, registered, ds, _, hopen⟩ :=
    exists_leads_opening hh (loaded_after_unload (ends_iff.2 ⟨_, hu⟩))
      (ends_iff.2 ⟨text, ho.symm.trans he⟩)
  have hrest := hpost.trans hopen
  rw [← ha] at hrest
  have hd : (enter host path).deeds w = pre ++ .teardown :: (post ++ ds) :=
    (hpre.trans hrest).deeds_eq.symm
  have hfirst : TellsFirst (.unload :: (hooks.map (.hook .unloaded) ++ [.tell asked "OnUnload"])) := by
    exact .inr ⟨fun _ => rfl, tellsFirst_of_isPlain isPlain_told⟩
  have htold : .tell (some old) "OnUnload" ∈ pre := by
    rcases hpre.woven.told hpre.admits hold hl hfirst with hm | ⟨_, hn⟩
    · exact hm
    · exact absurd (hn (.tell asked "OnUnload") (by simp)) (by simp [Deed.isFarewell])
  refine ⟨?_, pre, post ++ ds, hd, htold, fun name hn => ?_⟩
  · have hpos : 0 < ((enter host path).deeds w).count (.tell (some old) "OnUnload") := by
      rw [hd]
      exact List.count_pos_iff.2 (List.mem_append_left _ htold)
    omega
  · rw [← hpre.active] at hn
    exact ended_of_leads (hpre.links ht).tidy hrest (List.mem_append_left _ hforget) hn

/-- Where nothing else begins to load or unload anything, nothing is told twice. -/
theorem count_told_le_of_alone (hh : host.Follows) {path : Path} {w : World} {old : Nat}
    (ht : w.Tidy) (hold : w.session.environment = some old) (he : (enter host path).Ends w)
    (alone : Woven.Alone [.unload, .load path] ((enter host path).deeds w)) :
    ((enter host path).deeds w).count (.tell (some old) "OnUnload") ≤ 1 := by
  cases hl : w.session.loaded with
  | false =>
    rw [List.count_eq_zero.2 (not_told_of_not_loaded hh ht hold hl he)]
    exact Nat.zero_le 1
  | true =>
    have hu := ends_unload_of_enter hl he
    obtain ⟨ho, ha⟩ := enter_of_loaded path hl hu
    obtain ⟨text, he⟩ := ends_iff.1 he
    obtain ⟨hooks, asked, pre, post, hpre, hpost, _⟩ := exists_split_of_unload hh hl hu
    obtain ⟨functions, home, registered, ds, _, hopen⟩ :=
      exists_leads_opening hh (loaded_after_unload (ends_iff.2 ⟨_, hu⟩))
        (ends_iff.2 ⟨text, ho.symm.trans he⟩)
    have hall := (hpre.trans hpost).trans hopen
    rw [← ha] at hall
    have hd : (enter host path).deeds w = (pre ++ .teardown :: post) ++ ds := hall.deeds_eq.symm
    rw [hd] at alone ⊢
    rw [hall.woven.count_eq (alone.mono ?_) rfl]
    · have hhooks : (hooks.map (Deed.hook .unloaded)).count (.tell (some old) "OnUnload") = 0 :=
        List.count_eq_zero.2 (by simp)
      have hbeginning : (beginning functions home registered).count (.tell (some old) "OnUnload") = 0 :=
        List.count_eq_zero.2 (by simp [beginning])
      have hasked : [Deed.tell asked "OnUnload"].count (.tell (some old) "OnUnload") ≤ 1 :=
        List.count_le_length
      simpa [List.count_append, List.count_cons, hhooks, hbeginning] using hasked
    · rw [List.append_assoc, List.cons_append, List.cons_sublist_cons, List.singleton_sublist]
      simp

/-! ### The text begins -/

theorem exists_history_of_prepareScript (hh : host.Follows) {path : Path} {w : World}
    {text : String} {home : Nat} (hp : (prepareScript host path).outcome w = .ok text)
    (he : ((prepareScript host path).after w).session.environment = some home) :
    ∃ more, ((runScript host path).after w).history.toList =
      ((prepareScript host path).after w).history.toList ++ .body home path :: more := by
  have ha : (runScript host path).after w =
      (runText host path text).after ((prepareScript host path).after w) := after_bind_of_ok hp _
  obtain ⟨ds, hrun, _⟩ := begins_runText hh path text he
  exact ⟨ds, by rw [ha, hrun.history]⟩

/-- What a load does after the text has run is added to the history. -/
theorem history_runScript_prefix (hh : host.Follows) (path : Path) (w : World) :
    ((runScript host path).after w).history.toList <+:
      ((bringUp host path).after w).history.toList := by
  obtain ⟨own, ds, h⟩ := exists_leads_bringUp hh path w
  rw [h.history]
  exact List.prefix_append _ _

/-- A load goes on from `enter` with the text, in the environment that the session has then. -/
theorem exists_history_of_enter (hh : host.Follows) {s : String} {w : World} {home : Nat}
    (he : (enter host (Path.ofString s)).Ends w)
    (hhome : ((enter host (Path.ofString s)).after w).session.environment = some home) :
    ∃ more, ((load host (.text s)).after w).history.toList =
      ((enter host (Path.ofString s)).after w).history.toList ++
        .body home (Path.ofString s) :: more := by
  have rest : ∀ {w₀ : World} {text : String},
      (prepareScript host (Path.ofString s)).outcome (opening (Path.ofString s) w₀) = .ok text →
      ((prepareScript host (Path.ofString s)).after (opening (Path.ofString s) w₀)).session.environment =
        some home →
      ∃ more, ((loadPath host (Path.ofString s)).after w₀).history.toList =
        ((prepareScript host (Path.ofString s)).after
          (opening (Path.ofString s) w₀)).history.toList ++ .body home (Path.ofString s) :: more := by
    intro w₀ text hp hhome
    obtain ⟨more, hbody⟩ := exists_history_of_prepareScript hh hp hhome
    obtain ⟨more', hmore⟩ := history_runScript_prefix hh (Path.ofString s)
      (opening (Path.ofString s) w₀)
    rw [hbody, List.append_assoc, List.cons_append] at hmore
    cases ho : (bringUp host (Path.ofString s)).outcome (opening (Path.ofString s) w₀) with
    | ok b => exact ⟨_, by rw [after_loadPath_of_ok ho, ← hmore]⟩
    | error f =>
      refine ⟨more ++ more' ++ [.abort], ?_⟩
      rw [after_loadPath_of_error ho]
      change (Array.push _ _).toList = _
      rw [Array.toList_push, ← hmore]
      simp
  obtain ⟨text, he⟩ := ends_iff.1 he
  cases hl : w.session.loaded with
  | false =>
    obtain ⟨ho, ha⟩ := enter_of_not_loaded host (Path.ofString s) hl
    rw [(load_of_not_loaded host s hl).2, ha]
    exact rest (ho.symm.trans he) (ha ▸ hhome)
  | true =>
    have hu := ends_unload_of_enter hl (ends_iff.2 ⟨text, he⟩)
    obtain ⟨ho, ha⟩ := enter_of_loaded (Path.ofString s) hl hu
    rw [(load_of_loaded host s hl).2, after_bind_of_ok hu, ha]
    exact rest (ho.symm.trans he) (ha ▸ hhome)

/-- Up to where the text of another script begins to run, a script is told that it is unloaded and its
subscriptions end iff it is loaded and not told twice. It is not told twice where nothing else begins
to load or unload anything meanwhile. The text begins right after. -/
theorem clean_iff (n : Nat) (s : String) (w : World) (old : Nat) (ht : w.Tidy)
    (hold : w.session.environment = some old)
    (he : (enter (respond n) (Path.ofString s)).Ends w) :
    (Clean old ((enter (respond n) (Path.ofString s)).deeds w) w
        ((enter (respond n) (Path.ofString s)).after w) ↔
      w.session.loaded = true ∧
        ((enter (respond n) (Path.ofString s)).deeds w).count (.tell (some old) "OnUnload") ≤ 1) ∧
    (Woven.Alone [.unload, .load (Path.ofString s)] ((enter (respond n) (Path.ofString s)).deeds w) →
      ((enter (respond n) (Path.ofString s)).deeds w).count (.tell (some old) "OnUnload") ≤ 1) ∧
    ∀ home, ((enter (respond n) (Path.ofString s)).after w).session.environment = some home →
      ∃ more, ((load (respond n) (.text s)).after w).history.toList =
        ((enter (respond n) (Path.ofString s)).after w).history.toList ++
          .body home (Path.ofString s) :: more := by
  have hh := follows_respond n
  refine ⟨⟨fun h => ⟨?_, h.told.le⟩, fun ⟨hl, once⟩ => clean_of_loaded hh ht hold hl he once⟩,
    count_told_le_of_alone hh ht hold he, fun home => exists_history_of_enter hh he⟩
  by_contra hl
  have hn := not_told_of_not_loaded hh ht hold (Bool.eq_false_iff.2 hl) he
  have htold := h.told
  rw [List.count_eq_zero.2 hn] at htold
  omega

/-- Where two of three scripts listen to an event, and one asks for another while its text runs. -/
def following : World where
  files := (((default : Files.Node).put (.file (Text.encode "function OnUnload() end ListenTo('t') A.x()")) ["a.lua"]).put
    (.file (Text.encode "x = 1")) ["b.lua"]).put
      (.file (Text.encode "function OnUnload() end ListenTo('t')")) ["c.lua"]
  objects := #[.absent, .callable ⟨"function", "<function>", fun _ =>
    Program.request (.load (.text "b.lua")), none⟩]
  signals := ({} : Roster (List Handler)).put "s" []
  catalog :=
    { functions := ⟨[("A.x", pure ⟨"A", "x", pure (.object 1)⟩)]⟩
      events := ⟨[("t", pure ⟨"t", .signal "s" "T" fun _ _ => pure ()⟩)]⟩ }

theorem tidy_following : following.Tidy := by
  refine tidy_of_unused (fun {signal hs} h => ?_) rfl rfl
  rw [following, Roster.find?_put] at h
  split at h
  · exact (Option.some.inj h).symm
  · cases h

/-- What a script that is loaded listens to ends before the text of another begins. -/
theorem clean_of_following : Clean 0
    ((enter (respond 9) (Path.ofString "b.lua")).deeds
      ((load (respond 9) (.text "c.lua")).after following))
    ((load (respond 9) (.text "c.lua")).after following)
    ((enter (respond 9) (Path.ofString "b.lua")).after
      ((load (respond 9) (.text "c.lua")).after following)) := by
  have ht := (follows_load (follows_respond 9) (.text "c.lua")).tidy tidy_following
  have h : ((load (respond 9) (.text "c.lua")).after following).session.environment = some 0 ∧
      ((load (respond 9) (.text "c.lua")).after following).session.loaded = true ∧
      (enter (respond 9) (Path.ofString "b.lua")).Ends
        ((load (respond 9) (.text "c.lua")).after following) ∧
      ((enter (respond 9) (Path.ofString "b.lua")).deeds
        ((load (respond 9) (.text "c.lua")).after following)).count
          (.tell (some 0) "OnUnload") ≤ 1 := by decide +kernel
  obtain ⟨hold, hl, he, once⟩ := h
  exact (clean_iff 9 "b.lua" ((load (respond 9) (.text "c.lua")).after following) 0 ht hold
    he).1.2 ⟨hl, once⟩

/-- The text of a script that another loads while it runs begins in the midst of the other. -/
theorem not_clean_of_following : ∃ pre post,
    ((load (respond 9) (.text "a.lua")).after following).history.toList =
      pre ++ .body 1 (Path.ofString "b.lua") :: post ∧
    .body 0 (Path.ofString "a.lua") ∈ pre ∧ "t" ∈ listening [] pre ∧
      .tell (some 0) "OnUnload" ∉ pre := by
  let a := Path.ofString "a.lua"
  let b := Path.ofString "b.lua"
  have h : ((load (respond 9) (.text "a.lua")).after following).history.toList =
      [.load a, .make "A.x", .occupy 0, .body 0 a, .attach 0, .listen "t", .load b, .make "A.x",
        .occupy 1] ++ .body 1 b :: [.adopt b, .tell (some 1) "OnLoad", .succeed, .adopt a,
          .tell (some 1) "OnLoad", .succeed] := by decide +kernel
  exact ⟨_, _, h, by decide, by decide, by decide⟩

end Op

end ScriptHost
