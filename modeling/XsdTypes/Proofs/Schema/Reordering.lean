import XsdTypes.Proofs.Schema.Binding
import XsdTypes.Proofs.Schema.Reached

/-!
# The order in which names are bound

Binding a node writes its own payload, and reads of other nodes only what no binding writes. So the
nodes may be bound in any order: all orders succeed with the same graph, or none succeeds. A node that
has been bound may be bound again, which changes nothing.
-/

namespace XsdTypes.Resolution

variable {g g₁ g₂ : Graph} {nodes nodes₁ nodes₂ : List NodeId}

/-- Which nodes have been bound says what the graph is. -/
theorem Bound.unique (h₁ : Bound g nodes₁ g₁) (h₂ : Bound g nodes₂ g₂)
    (hnodes : ∀ n, n ∈ nodes₁ ↔ n ∈ nodes₂) : g₁ = g₂ := by
  have hnode : ∀ n, g₁.nodeAt n = g₂.nodeAt n := by
    intro n
    by_cases hn : n ∈ nodes₁
    · obtain ⟨payload₁, hbind₁, heq₁⟩ := h₁.bound n hn
      obtain ⟨payload₂, hbind₂, heq₂⟩ := h₂.bound n ((hnodes n).mp hn)
      rw [heq₁, heq₂, Except.ok.inj (hbind₁.symm.trans hbind₂)]
    · rw [h₁.same n hn, h₂.same n fun hn₂ => hn ((hnodes n).mpr hn₂)]
  have harray : g₁.nodes = g₂.nodes := by
    refine Array.ext (h₁.size.trans h₂.size.symm) fun n hn₁ hn₂ => ?_
    rw [← Graph.nodeAt_eq_getElem _ hn₁, ← Graph.nodeAt_eq_getElem _ hn₂]
    exact hnode n
  rw [h₁.rest, h₂.rest, harray]

/-- Binding a node again changes nothing. -/
theorem Bound.again (h : Bound g nodes g₁) {n : NodeId} (hn : n ∈ nodes) :
    (g₁.nodeAt n).resolved = true ∧ bindNode g₁ n = .ok g₁ := by
  obtain ⟨payload, hbind, heq⟩ := h.bound n hn
  have hagain : bind g₁ n = .ok payload := by
    rw [bind_eq_ok_iff, heq]
    exact (bind_eq_ok_iff.mp hbind).again h.sameNames
  refine ⟨by rw [heq], ?_⟩
  rw [bindNode, hagain]
  exact congrArg Except.ok (Graph.modifyNode_eq_self (by rw [heq]))

theorem BindsEach.bound (h : BindsEach g nodes (.ok g₁)) : Bound g nodes g₁ := by
  cases h with
  | all h => exact h

/-- When nodes can be bound in one order, they can be in another. -/
theorem BindsEach.eq_ok {result : Except Halt Graph} (h₁ : BindsEach g nodes₁ (.ok g₁))
    (h₂ : BindsEach g nodes₂ result) (hnodes : ∀ n, n ∈ nodes₁ ↔ n ∈ nodes₂) :
    result = .ok g₁ := by
  cases h₂ with
  | all h₂ => rw [h₂.unique h₁.bound fun n => (hnodes n).symm]
  | @stopped before after n e g₂ hsplit _ herror =>
    have hn : n ∈ nodes₁ := by
      rw [hnodes, hsplit]
      exact List.mem_append_right _ List.mem_cons_self
    obtain ⟨payload, hbind, _⟩ := h₁.bound.bound n hn
    rw [hbind] at herror
    cases herror

/-- The nodes that have not been bound may be bound in any order. This succeeds if it does in the
order of their creation, with the same graph. All that it writes are the payloads of the nodes that
come before the first one that cannot be bound, and that these have been bound. Wherever it has got
to, binding a node that came before again changes nothing. -/
theorem resolve_any_order (g : Graph) (first : NodeId) (order : List NodeId)
    (horder : order.Perm (pending g first)) :
    (∀ g', order.foldlM bindNode g = .ok g' ↔ resolveAll g first = .ok g') ∧
    BindsEach g order (order.foldlM bindNode g) ∧
    BindsEach g (pending g first) (resolveAll g first) ∧
    ∀ done g', done <+: order → done.foldlM bindNode g = .ok g' →
      ∀ n ∈ done, (g'.nodeAt n).resolved = true ∧ bindNode g' n = .ok g' := by
  have hnodup : order.Nodup := horder.nodup_iff.mpr pending_nodup
  have hlt : ∀ n ∈ order, n < g.nodes.size := fun n hn =>
    (mem_pending.mp (horder.mem_iff.mp hn)).1.2
  have heach := bindsEach hnodup hlt
  have hall := resolveAll_bindsEach g first
  refine ⟨fun g' => ⟨fun hok => ?_, fun hok => ?_⟩, heach, hall, ?_⟩
  · rw [hok] at heach
    exact heach.eq_ok hall fun _ => horder.mem_iff
  · rw [hok] at hall
    exact hall.eq_ok heach fun _ => horder.mem_iff.symm
  · intro done g' hdone hok n hn
    have hprefix := bindsEach (hnodup.sublist hdone.sublist) fun n hn => hlt n (hdone.subset hn)
    rw [hok] at hprefix
    exact hprefix.bound.again hn

/-- Two documents that use each other's types and groups before they are declared. -/
def knotRead : Graph :=
  [Graph.Call.read (.entry "a" none)
    ("<x:schema xmlns:x='http://www.w3.org/2001/XMLSchema' xmlns:b='b'>" ++
      "<x:element name='e' type='b:T'/><x:group name='G'><x:sequence><x:element ref='e'/>" ++
      "</x:sequence></x:group></x:schema>"),
   .read (.entry "b" none)
    ("<x:schema xmlns:x='http://www.w3.org/2001/XMLSchema' xmlns:b='b' targetNamespace='b'>" ++
      "<x:complexType name='T'><x:sequence><x:group ref='G'/><x:element name='f' type='b:L'/>" ++
      "</x:sequence></x:complexType><x:simpleType name='L'><x:list itemType='x:int'/>" ++
      "</x:simpleType></x:schema>")].foldl Graph.Call.perform (Graph.initial .standard)

set_option maxRecDepth 100000 in
theorem resolve_any_order_example : ∃ g',
    12 ≤ (pending knotRead 50).length ∧
    (pending knotRead 50).reverse.foldlM bindNode knotRead = .ok g' ∧
    resolveAll knotRead 50 = .ok g' ∧
    ∀ n ∈ (pending knotRead 50).reverse, bindNode g' n = .ok g' := by
  have heval : (12 ≤ (pending knotRead 50).length && (resolveAll knotRead 50).isOk) = true := by
    rw [knotRead, List.foldl_cons, List.foldl_cons, List.foldl_nil, Graph.Call.perform,
      Graph.Call.perform, Loading.read_of_toList (Loading.toList_append_ofList
        (Loading.toList_append_ofList String.toList_ofList)),
      Loading.read_of_toList (Loading.toList_append_ofList (Loading.toList_append_ofList
        (Loading.toList_append_ofList String.toList_ofList)))]
    decide +kernel
  obtain ⟨hlength, hok⟩ := Bool.and_eq_true_iff.mp heval
  obtain ⟨hany, _, _, hagain⟩ :=
    resolve_any_order knotRead 50 (pending knotRead 50).reverse (List.reverse_perm _)
  cases hall : resolveAll knotRead 50 with
  | error halt =>
    rw [hall] at hok
    cases hok
  | ok g' =>
    have hreverse := (hany g').mpr hall
    exact ⟨g', of_decide_eq_true hlength, hreverse, rfl, fun n hn =>
      (hagain _ g' (List.prefix_refl _) hreverse n hn).2⟩

end XsdTypes.Resolution
