import ScriptHost.Session.Lifecycle

/-!
# Reloading

Files that changed wait in a queue, each once. At a quiet moment the queue is worked off: the
script that is loaded is loaded again if its file is among them.
-/
namespace ScriptHost

open Files (Path)

/-- Adds a path to a queue, unless it waits there already. -/
def enqueue (queue : List Path) (p : Path) : List Path :=
  if queue.contains p then queue else queue ++ [p]

theorem nodup_enqueue {queue : List Path} (h : queue.Nodup) (p : Path) :
    (enqueue queue p).Nodup := by
  unfold enqueue
  split
  · exact h
  · rename_i hp
    rw [List.nodup_append]
    refine ⟨h, by simp, ?_⟩
    intro a ha b hb hab
    simp only [List.mem_singleton] at hb
    exact hp (by simpa using hb ▸ hab ▸ ha)

namespace Op

/-- The one path a path stands for. -/
def resolvePath (p : Path) : Op Path := do
  if p.parts.any (·.toList.contains '\x00') then throw (.nullInPath "lstat")
  return Path.resolve (← get).cwd p

/-- Lets a changed file wait. -/
def queueReload (path : String) : Op Unit := do
  let p ← resolvePath (Path.ofString path)
  let queue := (← get).pending
  unless queue.contains p do
    modify fun w => { w with pending := enqueue queue p }
    info "luahost.reload" s!"Queued reload: {p}"

/-- Reloads the script if it is the one at a path, and tells whether it did. -/
def reloadIfCurrent (host : Responder) (p : Path) : Op Bool := do
  let w ← get
  let current : Option Path := w.session.path.map (Path.resolve w.cwd)
  if !w.session.loaded || current ≠ some p then
    debug "luahost.reload" s!"Not the loaded script, skipping: {p}"
    return false
  if ← load host (.text p.toString) then
    info "luahost.reload" s!"Reloaded: {p}"
    return true
  warning "luahost.reload" s!"Reload failed, no script loaded: {p}"
  return false

/-- How many files that join the queue meanwhile are worked off. -/
def reloadLimit : Nat := 2 ^ 32

/-- Works off the queue, and gives the paths that were reloaded. Files that join meanwhile are
worked off too. -/
def applyPendingWithin (host : Responder) : Nat → Op (List Path)
  | 0 => return []
  | n + 1 => do
    match (← get).pending with
    | [] => return []
    | p :: rest =>
      modify fun w => { w with pending := rest }
      let reloaded ← reloadIfCurrent host p
      let more ← applyPendingWithin host n
      return if reloaded then p :: more else more

def applyPending (host : Responder) : Op (List Path) := do
  let count := (← get).pending.length
  applyPendingWithin host (reloadLimit + count)

/-- Lets the files of a batch of changes wait, those with the extension of scripts. A change is its
kind and the path of the file. -/
def takeChanges (extension : String) (changes : List (String × String)) : Op Unit :=
  changes.forM fun (kind, path) => do
    if (Path.ofString path).suffix = extension then
      queueReload path
      debug "luahost.watcher" s!"Change detected: {Path.ofString path} ({kind})"

/-- Watches a folder over batches of changes. -/
def watch (folder : Path) (extension : String) (batches : List (List (String × String))) :
    Op Unit := do
  info "luahost.watcher" s!"File watcher started for {folder}"
  batches.forM (takeChanges extension)

end Op

end ScriptHost
