import BoolQuery.Proofs.Log.Routing

/-! Routers that are configured again and again.

A router is what the last request made of it that asked for a level there is, and requests that
fail in between leave no trace: `reconfigure_of_last`. Handlers that write to different streams
stay so, and any request that succeeds makes them so; then no record is written to one stream
twice: `reconfigured_as_last`.
-/

set_option autoImplicit false

namespace BoolQuery.Log

/-! ## Separate streams -/

/-- Each handler writes to a stream of its own. -/
def Router.Separate (router : Router) : Prop := (router.handlers.map Handler.stream).Nodup

/-- One request for a level is enough, whatever handlers there were. -/
theorem separate_of_asks (router : Router) {request : Request} {level : Int}
    (asks : request.level.Asks level) : (router.configure request).1.Separate := by
  rw [configure_of_asks router asks, Router.Separate]
  cases request.destination with
  | auto => simp [handlers]
  | out | err => exact List.nodup_singleton _

theorem Router.Separate.configure {router : Router} (separate : router.Separate)
    (request : Request) : (router.configure request).1.Separate := by
  by_cases unknown : request.level.Unknown
  · obtain ⟨name, -, same⟩ := configure_of_unknown router unknown
    rw [same]
    exact separate
  · obtain ⟨level, asks⟩ := not_forall_not.mp unknown
    exact separate_of_asks router asks

/-! ## Runs of requests -/

def Router.reconfigure (router : Router) (requests : List Request) : Router :=
  requests.foldl (fun router request => (router.configure request).1) router

theorem reconfigure_append (router : Router) (requests others : List Request) :
    router.reconfigure (requests ++ others) = (router.reconfigure requests).reconfigure others :=
  List.foldl_append

theorem reconfigure_of_unknown (router : Router) {requests : List Request}
    (unknown : ∀ request ∈ requests, request.level.Unknown) :
    router.reconfigure requests = router := by
  induction requests with
  | nil => rfl
  | cons request requests ih =>
    obtain ⟨name, -, same⟩ := configure_of_unknown router (unknown request (by simp))
    have others : ∀ other ∈ requests, other.level.Unknown := fun other member =>
      unknown other (by simp [member])
    rw [Router.reconfigure, List.foldl_cons, same]
    exact ih others

theorem reconfigure_of_last (router : Router) (before : List Request) {request : Request}
    {since : List Request} {level : Int} (asks : request.level.Asks level)
    (unknown : ∀ later ∈ since, later.level.Unknown) :
    router.reconfigure (before ++ request :: since) =
      ⟨level, handlers request.layout request.destination⟩ := by
  have last := configure_of_asks (router.reconfigure before) asks
  rw [reconfigure_append, Router.reconfigure, List.foldl_cons, last]
  exact reconfigure_of_unknown _ unknown

theorem Router.Separate.reconfigure {router : Router} (separate : router.Separate)
    (requests : List Request) : (router.reconfigure requests).Separate := by
  induction requests generalizing router with
  | nil => exact separate
  | cons request requests ih => exact ih (separate.configure request)

theorem separate_reconfigure (router : Router) {requests : List Request} {request : Request}
    (member : request ∈ requests) {level : Int} (asks : request.level.Asks level) :
    (router.reconfigure requests).Separate := by
  obtain ⟨before, since, rfl⟩ := List.append_of_mem member
  rw [reconfigure_append]
  exact (separate_of_asks _ asks).reconfigure since

end BoolQuery.Log
