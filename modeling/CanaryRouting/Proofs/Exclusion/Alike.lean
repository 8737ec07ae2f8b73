import CanaryRouting.Proofs.Router.Listing
import CanaryRouting.Proofs.Updates.Replacing

/-!
# Header routes and lists of routes

A change of header routes changes the rules of a route, and not its name or its labels. So whatever
changes of header routes are carried out, side by side or not, the cluster looks alike to all
selectors (`Account.alike`), and a list of routes is the same before and after.
-/

namespace CanaryRouting

open Program

/-- Settings by which no label marks a route. -/
def unmarked : Settings := { disableLabel := true }

/-- The same routes are stored, and their labels are the same. -/
def Cluster.Alike (c c' : Cluster) : Prop := c.ListedAs unmarked c'

theorem Cluster.Alike.refl (c : Cluster) : c.Alike c := ListedAs.refl _ _

/-- Clusters that look alike are listed alike. -/
theorem Cluster.Alike.answer_eq {c c' : Cluster} (h : c.Alike c') (space : String) (kind : RouteKind)
    (selector : LabelSelector) :
    (Cluster.respond (.listRoutes space kind selector) c').1 =
      (Cluster.respond (.listRoutes space kind selector) c).1 :=
  respond_listRoutes_congr h space kind fun _ _ _ _ => by simp [Settings.marks, unmarked]

/-- A change of header routes changes the rules of a route only. -/
theorem Order.Makes.listed {o : Order} {r r' : Route} (h : o.Makes r r')
    (hchange : (o.operation.headerChange? o.rollout).isSome) (s : Settings) :
    r'.listed s = r.listed s := by
  cases h with
  | weights hop =>
    rw [hop] at hchange
    cases hchange
  | headers _ hon =>
    obtain ⟨hbefore, -, hproper⟩ := Router.proper_of_on hon ""
    obtain ⟨rules, hafter⟩ := hproper.after_eq
    rw [hafter, hbefore]
    rfl

/-- Changes of header routes leave the cluster alike. -/
theorem Account.alike {start c : Cluster} {orders : List Order} {events : List Event}
    {known : Nat → List Exchange} (h : Account start orders c events known)
    (hchange : ∀ o ∈ orders, (o.operation.headerChange? o.rollout).isSome) : start.Alike c := by
  refine h.past.history.listedAs fun e he k hk => ?_
  obtain ⟨hmem, haccepted⟩ := List.mem_filter.1 he
  obtain ⟨es₁, es₂, hsplit⟩ := List.append_of_mem hmem
  have hwrite : e.isWrite := by simp [Event.isWrite, hk]
  have hanswer := h.past.history.answer_eq he
  obtain ⟨o, ho, hfounded⟩ := h.founded es₁ e es₂ hsplit haccepted hwrite
  have hheader := hchange o (List.mem_of_getElem? ho)
  cases hfounded with
  | @replacesRoute _ _ _ k' _ _ _ _ hr hmakes hat =>
    obtain rfl : k' = k := by
      simpa [Request.routeKey?, hat.kind, hat.name] using hk
    rw [Cluster.get?_of_updateRoute hat hanswer.symm, hr]
    exact congrArg some (hmakes.listed hheader unmarked)
  | @restoresRoute _ _ _ k' _ _ _ _ _ _ _ _ hmakes hat hwritten =>
    have hback := hat.withVersion
    obtain rfl : k' = k := by
      simpa [Request.routeKey?, (hback _).kind, (hback _).name] using hk
    rw [Cluster.get?_of_updateRoute (hback _) hanswer.symm, hwritten]
    exact congrArg some (hmakes.listed hheader unmarked).symm
  | replacesDocument => cases hk
  | createsDocument => cases hk

end CanaryRouting
