import ShapeTyping.Proofs.Ty.Marks
import ShapeTyping.Proofs.Ty.Same
/-! What the text of a type tells about the type. A function among the members of a union is
written without brackets, so that the members after it look like alternatives of its result, and
this is all that a text leaves open. -/
namespace ShapeTyping

namespace Ty

/-! ## How a text is read -/

/-- The type of some alternatives. -/
def gather : List Ty → Ty
  | [t] => t
  | ts => .union ts

mutual
/-- What the text of a type is read as if the alternatives `rest` come after it: a function takes
them for alternatives of its result. -/
def readBefore : Ty → List Ty → List Ty
  | .union members, rest => readList members rest
  | .function ⟨params, result⟩, rest =>
    [.function ⟨readParams params, gather (result.readBefore rest)⟩]
  | .array element, rest => .array (gather (element.readBefore [])) :: rest
  | .intrinsic kind, rest => .intrinsic kind :: rest
  | .literal value, rest => .literal value :: rest
  | .shape s, rest => .shape s :: rest
  | .application name arguments, rest => .application name arguments :: rest
termination_by structural t => t
def readList : List Ty → List Ty → List Ty
  | [], rest => rest
  | t :: ts, rest => t.readBefore (readList ts rest)
termination_by structural ts => ts
def readParams : List (Param Ty) → List (Param Ty)
  | [] => []
  | ⟨position, optional, t⟩ :: params =>
    ⟨position, optional, gather (t.readBefore [])⟩ :: readParams params
termination_by structural ps => ps
end

/-- The type that the text of a type is read as. -/
def asRead (t : Ty) : Ty := gather (t.readBefore [])

theorem readList_eq (ts rest : List Ty) : readList ts rest = ts.foldr readBefore rest := by
  induction ts with
  | nil => rfl
  | cons t ts ih => rw [readList, ih, List.foldr_cons]

theorem readParams_eq (ps : List (Param Ty)) :
    readParams ps = ps.map fun p => { p with type := p.type.asRead } := by
  induction ps with
  | nil => rfl
  | cons p ps ih => rw [readParams, ih, List.map_cons]; rfl

/-! ## Reading mark by mark -/

/-- What stands before the last alternative of a type. -/
inductive Lead where
  | params (ps : List (Param Ty))
  | alternative (t : Ty)

/-- What some alternatives are read as after a lead. -/
def Lead.before (lead : Lead) (ts : List Ty) : List Ty :=
  match lead with
  | .params ps => [.function ⟨ps, gather ts⟩]
  | .alternative t => t :: ts

/-- An opening bracket: the leads before it, the parameters since, and the label of the one that
is being read. -/
structure Bracket where
  leads : List Lead
  params : List (Param Ty)
  label? : Option (Nat × Bool)

/-- How far a type has been read, with the innermost bracket first. -/
structure Reader where
  leads : List Lead
  last? : Option Ty
  brackets : List Bracket

namespace Reader

/-- The type that ends here. -/
def finish (leads : List Lead) (last : Ty) : Ty := gather (leads.foldr Lead.before [last])

def step : Reader → Mark → Option Reader
  | ⟨leads, none, outer⟩, .word kind => some ⟨leads, some (.intrinsic kind), outer⟩
  | ⟨leads, some t, outer⟩, .brackets => some ⟨leads, some (.array t), outer⟩
  | ⟨leads, some t, outer⟩, .bar => some ⟨leads ++ [.alternative t], none, outer⟩
  | ⟨leads, none, outer⟩, .opening => some ⟨[], none, ⟨leads, [], none⟩ :: outer⟩
  | ⟨inner, none, ⟨leads, ps, _⟩ :: outer⟩, .label position optional =>
    some ⟨inner, none, ⟨leads, ps, some (position, optional)⟩ :: outer⟩
  | ⟨inner, some t, ⟨leads, ps, some (position, optional)⟩ :: outer⟩, .comma =>
    some ⟨[], none, ⟨leads, ps ++ [⟨position, optional, finish inner t⟩], none⟩ :: outer⟩
  | ⟨inner, some t, ⟨leads, ps, some (position, optional)⟩ :: outer⟩, .closing =>
    some ⟨leads ++ [.params (ps ++ [⟨position, optional, finish inner t⟩])], none, outer⟩
  | ⟨inner, some t, ⟨leads, _, none⟩ :: outer⟩, .closing =>
    some ⟨leads, some (finish inner t), outer⟩
  | ⟨_, none, ⟨leads, ps, _⟩ :: outer⟩, .closing => some ⟨leads ++ [.params ps], none, outer⟩
  | reader, .arrow => some reader
  | _, _ => none

def run (reader : Reader) (ms : List Mark) : Option Reader := ms.foldlM step reader

theorem run_append (reader : Reader) (ms ns : List Mark) :
    reader.run (ms ++ ns) = (reader.run ms).bind fun next => next.run ns := List.foldlM_append

end Reader

/-- The leads and the last alternative that a reader has after the text of a type. -/
structure Reads (t : Ty) (leads : List Lead) (last : Ty) : Prop where
  run : ∀ earlier outer,
    Reader.run ⟨earlier, none, outer⟩ t.marks = some ⟨earlier ++ leads, some last, outer⟩
  alternatives : ∀ rest, leads.foldr Lead.before (last :: rest) = t.readBefore rest
  single : t.isOpen = false → leads = []

theorem Reads.finish {t last : Ty} {leads : List Lead} (h : Reads t leads last) :
    Reader.finish leads last = t.asRead := congrArg gather (h.alternatives [])

/-- From the opening bracket of a list of parameters to the closing one. -/
theorem run_params {ps : List (Param Ty)} (h : ∀ p ∈ ps, ∃ leads last, Reads p.type leads last)
    (earlier : List Lead) (read : List (Param Ty)) (outer : List Bracket) :
    Reader.run ⟨[], none, ⟨earlier, read, none⟩ :: outer⟩
        ([.comma].intercalate (paramMarks ps) ++ [.closing]) =
      some ⟨earlier ++ [.params (read ++ readParams ps)], none, outer⟩ := by
  induction ps generalizing read with
  | nil => rw [readParams, List.append_nil]; rfl
  | cons p ps ih =>
    obtain ⟨leads, last, hp⟩ := h p (List.mem_cons_self ..)
    have hparam : readParams (p :: ps) =
        ⟨p.position, p.optional, Reader.finish leads last⟩ :: readParams ps := by
      rw [hp.finish]
      rfl
    rw [hparam]
    cases ps with
    | nil =>
      calc Reader.run ⟨[], none, ⟨earlier, read, none⟩ :: outer⟩
            ([.comma].intercalate (paramMarks [p]) ++ [.closing])
        _ = Reader.run ⟨[], none, ⟨earlier, read, some (p.position, p.optional)⟩ :: outer⟩
            (p.type.marks ++ [.closing]) := by
          rw [paramMarks, paramMarks, List.intercalate_singleton]
          rfl
        _ = _ := by
          rw [Reader.run_append, hp.run]
          rfl
    | cons q ps =>
      calc Reader.run ⟨[], none, ⟨earlier, read, none⟩ :: outer⟩
            ([.comma].intercalate (paramMarks (p :: q :: ps)) ++ [.closing])
        _ = Reader.run ⟨[], none, ⟨earlier, read, some (p.position, p.optional)⟩ :: outer⟩
            (p.type.marks ++ .comma ::
              ([.comma].intercalate (paramMarks (q :: ps)) ++ [.closing])) := by
          rw [paramMarks, paramMarks, List.intercalate_cons_cons]
          simp only [List.append_assoc]
          rfl
        _ = Reader.run ⟨[], none, ⟨earlier,
              read ++ [⟨p.position, p.optional, Reader.finish leads last⟩], none⟩ :: outer⟩
            ([.comma].intercalate (paramMarks (q :: ps)) ++ [.closing]) := by
          rw [Reader.run_append, hp.run]
          rfl
        _ = _ := by
          rw [ih (fun r hr => h r (List.mem_cons_of_mem _ hr)), List.append_assoc]
          rfl

theorem members_ne_nil {members : List Ty} (h : (Ty.union members).WellFormed) :
    members ≠ [] :=
  List.ne_nil_of_length_pos (Nat.zero_lt_of_lt h.proper.1)

theorem exists_reads_union {ms : List Ty} (hne : ms ≠ [])
    (h : ∀ m ∈ ms, ∃ leads last, Reads m leads last) :
    ∃ leads last, Reads (.union ms) leads last := by
  induction ms with
  | nil => exact absurd rfl hne
  | cons m ms ih =>
    obtain ⟨leads, last, hm⟩ := h m (List.mem_cons_self ..)
    cases ms with
    | nil =>
      refine ⟨leads, last, fun earlier outer => ?_, hm.alternatives, nofun⟩
      rw [marks_union_cons]
      exact (congrArg _ (List.append_nil _)).trans (hm.run earlier outer)
    | cons n ms =>
      obtain ⟨leads', last', hms⟩ :=
        ih (List.cons_ne_nil _ _) fun r hr => h r (List.mem_cons_of_mem _ hr)
      refine ⟨leads ++ .alternative last :: leads', last', fun earlier outer => ?_,
        fun rest => ?_, nofun⟩
      · calc Reader.run ⟨earlier, none, outer⟩ (Ty.union (m :: n :: ms)).marks
          _ = Reader.run ⟨earlier, none, outer⟩
              (m.marks ++ .bar :: (Ty.union (n :: ms)).marks) := by
            rw [marks_union_cons, furtherMarks_cons, marks_union_cons]
          _ = Reader.run ⟨earlier ++ leads ++ [.alternative last], none, outer⟩
              (Ty.union (n :: ms)).marks := by
            rw [Reader.run_append, hm.run]
            rfl
          _ = _ := by
            rw [hms.run, List.append_assoc, List.append_assoc]
            rfl
      · rw [List.foldr_append, List.foldr_cons, hms.alternatives]
        exact hm.alternatives _

theorem exists_reads {t : Ty} (h : Nested.Free hasOwnText t) (hwf : t.WellFormed) :
    ∃ leads last, Reads t leads last := by
  induction t with
  | intrinsic kind =>
    exact ⟨[], .intrinsic kind, fun earlier outer => by rw [List.append_nil]; rfl, fun rest => rfl,
      fun _ => rfl⟩
  | union members ih =>
    exact exists_reads_union (members_ne_nil hwf) fun m hm =>
      ih m hm (h.part (member_mem_parts hm)) (hwf.part (member_mem_parts hm))
  | function s ihp ihr =>
    obtain ⟨ps, result⟩ := s
    obtain ⟨leads, last, hresult⟩ :=
      ihr (h.part (result_mem_parts _)) (hwf.part (result_mem_parts _))
    refine ⟨.params (readParams ps) :: leads, last, fun earlier outer => ?_, fun rest => ?_, nofun⟩
    · have hparams := run_params (fun p hp => ihp p hp (h.part (param_mem_parts hp))
        (hwf.part (param_mem_parts hp))) earlier [] outer
      calc Reader.run ⟨earlier, none, outer⟩ (Ty.function ⟨ps, result⟩).marks
        _ = Reader.run ⟨[], none, ⟨earlier, [], none⟩ :: outer⟩
            ([.comma].intercalate (paramMarks ps) ++ [.closing] ++ .arrow :: result.marks) := by
          rw [marks, List.append_cons]
          rfl
        _ = Reader.run ⟨earlier ++ [.params (readParams ps)], none, outer⟩ result.marks := by
          rw [Reader.run_append, hparams]
          rfl
        _ = _ := by
          rw [hresult.run, List.append_assoc]
          rfl
    · rw [List.foldr_cons, hresult.alternatives]
      rfl
  | array element ih =>
    obtain ⟨leads, last, helement⟩ :=
      ih (h.part (element_mem_parts _)) (hwf.part (element_mem_parts _))
    refine ⟨[], .array element.asRead, fun earlier outer => ?_, fun rest => rfl, fun _ => rfl⟩
    rw [marks, ← helement.finish, List.append_nil]
    split
    next =>
      calc Reader.run ⟨earlier, none, outer⟩ (.opening :: (element.marks ++ [.closing, .brackets]))
        _ = Reader.run ⟨[], none, ⟨earlier, [], none⟩ :: outer⟩
            (element.marks ++ [.closing, .brackets]) := rfl
        _ = _ := by
          rw [Reader.run_append, helement.run]
          rfl
    next hopen =>
      -- Without brackets the element is the alternative that was read last.
      obtain rfl := helement.single (Bool.eq_false_iff.mpr hopen)
      rw [Reader.run_append, helement.run, List.append_nil]
      rfl
  | literal value => cases h.here
  | shape s => cases h.here
  | application name arguments => cases h.here

/-- Types with the same marks are read as the same type. -/
theorem asRead_eq_of_marks_eq {s t : Ty} (hs : Nested.Free hasOwnText s)
    (ht : Nested.Free hasOwnText t) (hws : s.WellFormed) (hwt : t.WellFormed)
    (h : s.marks = t.marks) : s.asRead = t.asRead := by
  obtain ⟨leads, last, hreads⟩ := exists_reads hs hws
  obtain ⟨leads', last', hreads'⟩ := exists_reads ht hwt
  have hrun := hreads.run [] []
  rw [h, hreads'.run] at hrun
  cases hrun
  rw [← hreads.finish, ← hreads'.finish]

/-! ## The text of what was read -/

theorem marks_gather_cons (t : Ty) (ts : List Ty) :
    (gather (t :: ts)).marks = t.marks ++ furtherMarks ts := by
  cases ts with
  | nil => exact (List.append_nil _).symm
  | cons u ts => exact marks_union_cons t (u :: ts)

theorem furtherMarks_eq {ts : List Ty} (h : ts ≠ []) :
    furtherMarks ts = .bar :: (gather ts).marks := by
  cases ts with
  | nil => exact absurd rfl h
  | cons t ts => rw [furtherMarks_cons, marks_gather_cons]

theorem readBefore_ne_nil {t : Ty} (h : t.WellFormed) (rest : List Ty) :
    t.readBefore rest ≠ [] := by
  induction t generalizing rest with
  | union members ih =>
    cases members with
    | nil => exact absurd rfl (members_ne_nil h)
    | cons m ms =>
      have hm : m ∈ m :: ms := List.mem_cons_self ..
      exact ih m hm (h.part (member_mem_parts hm)) _
  | _ => exact List.cons_ne_nil _ _

/-- What is neither a union nor a function keeps apart from what comes after it. -/
theorem readBefore_eq_cons {t : Ty} (h : t.isOpen = false) (rest : List Ty) :
    t.readBefore rest = t.asRead :: rest := by
  cases t with
  | union | function => cases h
  | _ => rfl

theorem isOpen_gather_cons (t : Ty) {ts : List Ty} (h : ts ≠ []) :
    (gather (t :: ts)).isOpen = true := by
  cases ts with
  | nil => exact absurd rfl h
  | cons u ts => rfl

theorem isOpen_asRead {t : Ty} (h : t.WellFormed) : t.asRead.isOpen = t.isOpen := by
  cases t with
  | union members =>
    obtain ⟨hlength, hflat, -⟩ := h.proper
    match members, h, hlength, hflat with
    | m :: n :: ms, h, _, hflat =>
      have hn : n.WellFormed := h.part (member_mem_parts (by simp))
      have hrest : readList (n :: ms) [] ≠ [] := readBefore_ne_nil hn _
      show (gather (m.readBefore (readList (n :: ms) []))).isOpen = true
      cases hopen : m.isOpen with
      | false =>
        rw [readBefore_eq_cons hopen]
        exact isOpen_gather_cons _ hrest
      | true =>
        cases m with
        | function s => rfl
        | union => cases hflat _ (List.mem_cons_self ..)
        | _ => cases hopen
  | _ => rfl

theorem marks_gather_readList {ts : List Ty} (hne : ts ≠ []) (hwf : ∀ t ∈ ts, t.WellFormed)
    (h : ∀ t ∈ ts, ∀ rest, (gather (t.readBefore rest)).marks = t.marks ++ furtherMarks rest)
    (rest : List Ty) :
    (gather (readList ts rest)).marks = (Ty.union ts).marks ++ furtherMarks rest := by
  induction ts with
  | nil => exact absurd rfl hne
  | cons t ts ih =>
    rw [readList, h t (List.mem_cons_self ..), marks_union_cons, List.append_assoc]
    cases ts with
    | nil => rfl
    | cons u ts =>
      have hrest : readList (u :: ts) rest ≠ [] := readBefore_ne_nil (hwf u (by simp)) _
      have hmarks := ih (List.cons_ne_nil _ _) (fun v hv => hwf v (List.mem_cons_of_mem _ hv))
        fun v hv => h v (List.mem_cons_of_mem _ hv)
      rw [furtherMarks_eq hrest, hmarks, marks_union_cons, furtherMarks_cons]
      rfl

theorem marks_gather_readBefore {t : Ty} (h : Nested.Free hasOwnText t) (hwf : t.WellFormed)
    (rest : List Ty) : (gather (t.readBefore rest)).marks = t.marks ++ furtherMarks rest := by
  induction t generalizing rest with
  | intrinsic kind => exact marks_gather_cons _ _
  | union members ih =>
    exact marks_gather_readList (members_ne_nil hwf)
      (fun m hm => hwf.part (member_mem_parts hm))
      (fun m hm => ih m hm (h.part (member_mem_parts hm)) (hwf.part (member_mem_parts hm))) rest
  | function s ihp ihr =>
    obtain ⟨ps, result⟩ := s
    have hps : paramMarks (readParams ps) = paramMarks ps := by
      rw [readParams_eq, paramMarks_eq, paramMarks_eq, List.map_map]
      refine List.map_congr_left fun p hp => congrArg (List.cons _) ?_
      exact (ihp p hp (h.part (param_mem_parts hp)) (hwf.part (param_mem_parts hp)) []).trans
        (List.append_nil _)
    show (Ty.function ⟨readParams ps, gather (result.readBefore rest)⟩).marks = _
    rw [marks, marks, hps, ihr (h.part (result_mem_parts _)) (hwf.part (result_mem_parts _))]
    simp only [List.cons_append, List.append_assoc]
  | array element ih =>
    have helement : element.asRead.marks = element.marks :=
      (ih (h.part (element_mem_parts _)) (hwf.part (element_mem_parts _)) []).trans
        (List.append_nil _)
    have harray : (Ty.array element.asRead).marks = (Ty.array element).marks := by
      rw [marks, marks, helement, isOpen_asRead (hwf.part (element_mem_parts _))]
    rw [← harray]
    exact marks_gather_cons _ _
  | literal value => cases h.here
  | shape s => cases h.here
  | application name arguments => cases h.here

/-- A type has the marks of what it is read as. -/
theorem marks_asRead {t : Ty} (h : Nested.Free hasOwnText t) (hwf : t.WellFormed) :
    t.asRead.marks = t.marks := (marks_gather_readBefore h hwf []).trans (List.append_nil _)

/-! ## Functions that come last -/

/-- A union in which another member comes after a function. -/
def hasEarlyFunction : Ty → Bool
  | .union members => members.dropLast.any isFunction
  | _ => false

theorem readBefore_nil {t : Ty} (h : t.isUnion = false) : t.readBefore [] = [t.asRead] := by
  cases t with
  | union => cases h
  | _ => rfl

theorem readList_eq_self {ts : List Ty} (h : ∀ t ∈ ts, t.asRead = t)
    (hflat : ∀ t ∈ ts, t.isUnion = false) (hlast : ts.dropLast.any isFunction = false) :
    readList ts [] = ts := by
  induction ts with
  | nil => rfl
  | cons t ts ih =>
    have ht : t.asRead = t := h t (List.mem_cons_self ..)
    have htu : t.isUnion = false := hflat t (List.mem_cons_self ..)
    cases ts with
    | nil => rw [readList, readList, readBefore_nil htu, ht]
    | cons u ts =>
      rw [List.dropLast_cons_cons, List.any_cons, Bool.or_eq_false_iff] at hlast
      have hopen : t.isOpen = false := by
        cases t with
        | union => cases htu
        | function => cases hlast.1
        | _ => rfl
      rw [readList, ih (fun v hv => h v (List.mem_cons_of_mem _ hv))
        (fun v hv => hflat v (List.mem_cons_of_mem _ hv)) hlast.2, readBefore_eq_cons hopen, ht]

theorem asRead_eq_self {t : Ty} (h : Nested.Free hasEarlyFunction t) (hwf : t.WellFormed) :
    t.asRead = t := by
  induction t with
  | union members ih =>
    obtain ⟨hlength, hflat, -⟩ := hwf.proper
    have hmembers : readList members [] = members :=
      readList_eq_self (fun m hm => ih m hm (h.part (member_mem_parts hm))
        (hwf.part (member_mem_parts hm))) hflat h.here
    show gather (readList members []) = _
    rw [hmembers]
    match members, hlength with
    | _ :: _ :: _, _ => rfl
  | function s ihp ihr =>
    obtain ⟨ps, result⟩ := s
    have hps : readParams ps = ps := by
      rw [readParams_eq]
      refine (List.map_congr_left fun p hp => ?_).trans (List.map_id _)
      rw [ihp p hp (h.part (param_mem_parts hp)) (hwf.part (param_mem_parts hp))]
      rfl
    show Ty.function ⟨readParams ps, result.asRead⟩ = _
    rw [hps, ihr (h.part (result_mem_parts _)) (hwf.part (result_mem_parts _))]
  | array element ih =>
    show Ty.array element.asRead = _
    rw [ih (h.part (element_mem_parts _)) (hwf.part (element_mem_parts _))]
  | _ => rfl

/-- All that a reading leaves out. -/
def isUnread (t : Ty) : Bool := t.hasOwnText || t.hasEarlyFunction

/-- Alternatives as they are read: only the last one may be a function. -/
structure Settled (ts : List Ty) : Prop where
  free : ∀ t ∈ ts, Nested.Free isUnread t
  last : ts.dropLast.any isFunction = false

theorem settled_nil : Settled [] := ⟨nofun, rfl⟩

theorem Settled.cons {t : Ty} {ts : List Ty} (h : Settled ts) (ht : Nested.Free isUnread t)
    (hfunction : t.isFunction = false) : Settled (t :: ts) := by
  refine ⟨List.forall_mem_cons.mpr ⟨ht, h.free⟩, ?_⟩
  cases ts with
  | nil => rfl
  | cons u ts =>
    rw [List.dropLast_cons_cons, List.any_cons, hfunction, h.last]
    rfl

theorem Settled.gather {ts : List Ty} (h : Settled ts) : Nested.Free isUnread (gather ts) := by
  match ts, h with
  | [t], h => exact h.free t (List.mem_singleton_self t)
  | [], h | _ :: _ :: _, h => exact Nested.everywhere_iff.mpr ⟨h.last, h.free⟩

theorem settled_readBefore {t : Ty} (ht : Nested.Free hasOwnText t) {rest : List Ty}
    (hrest : Settled rest) : Settled (t.readBefore rest) := by
  induction t generalizing rest with
  | intrinsic kind => exact hrest.cons (Nested.everywhere_iff.mpr ⟨rfl, nofun⟩) rfl
  | union members ih =>
    show Settled (readList members rest)
    rw [readList_eq]
    exact List.foldrRecOn members readBefore hrest fun ts hts m hm =>
      ih m hm (ht.part (member_mem_parts hm)) hts
  | function s ihp ihr =>
    obtain ⟨ps, result⟩ := s
    have hparts : ∀ u ∈ (readParams ps).map (·.type) ++ [Ty.gather (result.readBefore rest)],
        Nested.Free isUnread u := by
      intro u hu
      rcases List.mem_append.mp hu with hu | hu
      · rw [readParams_eq, List.map_map] at hu
        obtain ⟨p, hp, rfl⟩ := List.mem_map.mp hu
        exact (ihp p hp (ht.part (param_mem_parts hp)) settled_nil).gather
      · rw [List.mem_singleton.mp hu]
        exact (ihr (ht.part (result_mem_parts _)) hrest).gather
    exact ⟨List.forall_mem_singleton.mpr (Nested.everywhere_iff.mpr ⟨rfl, hparts⟩), rfl⟩
  | array element ih =>
    refine hrest.cons (Nested.everywhere_iff.mpr ⟨rfl, fun u hu => ?_⟩) rfl
    rw [List.mem_singleton.mp hu]
    exact (ih (ht.part (element_mem_parts _)) settled_nil).gather
  | literal value => cases ht.here
  | shape s => cases ht.here
  | application name arguments => cases ht.here

theorem free_asRead {t : Ty} (ht : Nested.Free hasOwnText t) :
    Nested.Free hasOwnText t.asRead ∧ Nested.Free hasEarlyFunction t.asRead := by
  have h : Nested.Free isUnread t.asRead := (settled_readBefore ht settled_nil).gather
  exact ⟨fun u hu => (Bool.or_eq_false_iff.mp (h u hu)).1,
    fun u hu => (Bool.or_eq_false_iff.mp (h u hu)).2⟩

/-! ## What a text tells -/

theorem same_self {t : Ty} (hwf : t.WellFormed) (h : Nested.Free hasOwnText t) :
    t.same t = true := by
  refine (equal_self_iff hwf).mpr fun u hu => ?_
  have hu := h u hu
  cases u with
  | literal => cases hu
  | _ => rfl

/-- The text of a type without text of its own tells the type up to where the result of a function
ends. It is the text of one type in which functions come last in unions, and two types have the
same text just if they are read as the same type of this kind. Among the types of this kind, those
with the same text are equal. -/
theorem display_tells_asRead {a b : Ty} (ha : a.WellFormed) (hb : b.WellFormed)
    (hta : Nested.Free hasOwnText a) (htb : Nested.Free hasOwnText b) :
    (a.asRead.display = a.display ∧ Nested.Free hasEarlyFunction a.asRead) ∧
    (a.display = b.display ↔ a.asRead = b.asRead) ∧
    (Nested.Free hasEarlyFunction a → Nested.Free hasEarlyFunction b →
      a.display = b.display → a.same b = true) := by
  obtain ⟨htext, hearly⟩ := free_asRead hta
  have hiff : a.display = b.display ↔ a.asRead = b.asRead := by
    rw [display_eq_iff_marks_eq hta htb]
    constructor
    · exact asRead_eq_of_marks_eq hta htb ha hb
    · intro h
      rw [← marks_asRead hta ha, ← marks_asRead htb hb, h]
  refine ⟨⟨?_, hearly⟩, hiff, fun hfa hfb h => ?_⟩
  · exact (display_eq_iff_marks_eq htext hta).mpr (marks_asRead hta ha)
  · rw [hiff, asRead_eq_self hfa ha, asRead_eq_self hfb hb] at h
    rw [← h]
    exact same_self ha hta

/-- A function that comes first in a union and one whose result is the union are read alike. A
type with arrays of unions and of functions, and with a function that comes last in a union, has a
text of its own. -/
theorem display_tells_asRead_callback :
    let handler (t : Ty) : Ty := .function ⟨[⟨0, false, t⟩, ⟨1, true, .intrinsic .void⟩], t⟩
    let early : Ty := .union [handler (.intrinsic .string), .intrinsic .null]
    let late : Ty := .function ⟨[⟨0, false, .intrinsic .string⟩, ⟨1, true, .intrinsic .void⟩],
      .union [.intrinsic .string, .intrinsic .null]⟩
    let t : Ty := .union [.array (handler (.intrinsic .string)), .intrinsic .null,
      handler (.array (.union [.intrinsic .number, .intrinsic .boolean]))]
    (early.asRead = late ∧ late.asRead = late ∧ early.display = late.display) ∧
      t.display = "((p0: string, p1?: void) => string)[] | null | " ++
        "(p0: (number | boolean)[], p1?: void) => (number | boolean)[]" ∧
      t.asRead.display = t.display ∧ t.same t = true := by
  intro handler early late t
  have hwf : t.WellFormed := by decide
  have htext : Nested.Free hasOwnText t := by decide
  have hlast : Nested.Free hasEarlyFunction t := by decide
  obtain ⟨-, halike, -⟩ := display_tells_asRead (a := early) (b := late) (by decide) (by decide)
    (by decide) (by decide)
  obtain ⟨⟨hdisplay, -⟩, -, hsame⟩ := display_tells_asRead hwf hwf htext htext
  exact ⟨⟨rfl, rfl, halike.mpr rfl⟩, by decide, hdisplay, hsame hlast hlast rfl⟩

/-- A function that comes first in a union has the text of one whose result is the union. -/
theorem display_hides_end_of_result :
    let a : Ty := .union [.function ⟨[], .intrinsic .string⟩, .intrinsic .number]
    let b : Ty := .function ⟨[], .union [.intrinsic .string, .intrinsic .number]⟩
    (a.WellFormed ∧ Nested.Free hasOwnText a) ∧ (b.WellFormed ∧ Nested.Free hasOwnText b) ∧
      a.display = b.display ∧ a.same b = false := by
  decide

end Ty
end ShapeTyping
