import ScriptHost.Proofs.Loads
import ScriptHost.Proofs.Requests

/-!
# Answers

No answer to foreign code has deeds of its own, however many requests lead to one another
(`follows_respond`). So whatever scripts, hooks, listeners, factories and other foreign code do in a
run, its history is woven from whole blocks.
-/
namespace ScriptHost.Op

open World

theorem governs_trail {host : Responder} (hh : host.Follows) (base : World) :
    Governs (Trail base) host host where
  answers := hh.alike base
  listen name := follows_iff_alike.1 (follows_listen hh name) base
  emit signal args := follows_iff_alike.1 (follows_emit hh signal args) base
  count signal := follows_iff_alike.1 ((follows_handlers signal).bind fun _ => follows_pure _) base
  load path := follows_iff_alike.1 (follows_load hh path) base
  unload := follows_iff_alike.1 (follows_unload hh) base
  discover := follows_iff_alike.1 (follows_discover hh) base
  unsubscribeAll := follows_iff_alike.1 (follows_unsubscribeAll hh) base

theorem follows_answer_of_meddles {host : Responder} (hh : host.Follows) {q : Request}
    (hq : q.meddles) : (answerRequest host q).Follows := by
  have none_after : ∀ {m : Op Unit}, m.Follows → (do m; return Datum.none).Follows := fun hm =>
    hm.bind fun _ => follows_pure _
  cases q with
  | connect signal handler => exact none_after (follows_connect_object _ _)
  | disconnect signal handler => exact none_after (follows_disconnect _ _)
  | clearHandlers signal =>
    have h := none_after (follows_clearHandlers signal)
    rwa [bind_assoc] at h
  | subscribe event => exact none_after (follows_subscribe hh _)
  | unsubscribe event => exact none_after (follows_unsubscribe hh _)
  | _ => cases hq

theorem follows_answerRequest {host : Responder} (hh : host.Follows) (q : Request) :
    (answerRequest host q).Follows :=
  follows_iff_alike.2 fun base => alike_answerRequest (bond_trail base) (governs_trail hh base)
    (fun _ => restless_trail base) fun hq =>
      follows_iff_alike.1 (follows_answer_of_meddles hh hq) base

/-- No answer has deeds of its own, whatever foreign code asks and does with it. -/
theorem follows_respond (n : Nat) : (respond n).Follows := by
  induction n with
  | zero => exact fun _ => follows_throw _
  | succ n ih => exact fun q => follows_answerRequest ih q

end ScriptHost.Op
