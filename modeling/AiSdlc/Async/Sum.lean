import AiSdlc.Async.Pool

/-! Two kinds of programs in one pool: the requests of both are joined, and so are their
surroundings. What a program ensures about its own exchanges it ensures among the joined ones.
-/

namespace AiSdlc.Async

variable {First Second State : Type} {FirstReply : First → Type} {SecondReply : Second → Type}
  {α β : Type}

/-- The replies to joined requests. -/
abbrev SumReply (FirstReply : First → Type) (SecondReply : Second → Type)
    : First ⊕ Second → Type
  | .inl request => FirstReply request
  | .inr request => SecondReply request

/-- The surroundings that answer the requests of both kinds. -/
def Environment.sum (first : Environment State First FirstReply)
    (second : Environment State Second SecondReply)
    : Environment State (First ⊕ Second) (SumReply FirstReply SecondReply)
  | state, .inl request, reply, after => first state request reply after
  | state, .inr request, reply, after => second state request reply after

def Program.inl
    : Program First FirstReply α
      → Program (First ⊕ Second) (SumReply FirstReply SecondReply) (α ⊕ β)
  | .done value => .done (.inl value)
  | .ask request next => .ask (.inl request) fun reply => (next reply).inl

def Program.inr
    : Program Second SecondReply β
      → Program (First ⊕ Second) (SumReply FirstReply SecondReply) (α ⊕ β)
  | .done value => .done (.inr value)
  | .ask request next => .ask (.inr request) fun reply => (next reply).inr

def Interaction.inl (interaction : Interaction First FirstReply)
    : Interaction (First ⊕ Second) (SumReply FirstReply SecondReply) :=
  ⟨.inl interaction.request, interaction.reply⟩

def Interaction.inr (interaction : Interaction Second SecondReply)
    : Interaction (First ⊕ Second) (SumReply FirstReply SecondReply) :=
  ⟨.inr interaction.request, interaction.reply⟩

def Interaction.first?
    : Interaction (First ⊕ Second) (SumReply FirstReply SecondReply)
      → Option (Interaction First FirstReply)
  | ⟨.inl request, reply⟩ => some ⟨request, reply⟩
  | ⟨.inr _, _⟩ => none

def Interaction.second?
    : Interaction (First ⊕ Second) (SumReply FirstReply SecondReply)
      → Option (Interaction Second SecondReply)
  | ⟨.inl _, _⟩ => none
  | ⟨.inr request, reply⟩ => some ⟨request, reply⟩

/-- What is allowed after the exchanges of one kind, for each kind. -/
def SumAllowed (first : List (Interaction First FirstReply) → First → Prop)
    (second : List (Interaction Second SecondReply) → Second → Prop)
    (log : List (Interaction (First ⊕ Second) (SumReply FirstReply SecondReply)))
    : First ⊕ Second → Prop
  | .inl request => first (log.filterMap Interaction.first?) request
  | .inr request => second (log.filterMap Interaction.second?) request

theorem filterMap_first?_map_inl (log : List (Interaction First FirstReply))
    : (log.map (fun interaction =>
        (interaction.inl : Interaction (First ⊕ Second) (SumReply FirstReply SecondReply)))
      ).filterMap Interaction.first? = log := by
  induction log with
  | nil => rfl
  | cons interaction rest ih => exact congrArg (interaction :: ·) ih

theorem filterMap_second?_map_inr (log : List (Interaction Second SecondReply))
    : (log.map (fun interaction =>
        (interaction.inr : Interaction (First ⊕ Second) (SumReply FirstReply SecondReply)))
      ).filterMap Interaction.second? = log := by
  induction log with
  | nil => rfl
  | cons interaction rest ih => exact congrArg (interaction :: ·) ih

variable {first : List (Interaction First FirstReply) → First → Prop}
  {second : List (Interaction Second SecondReply) → Second → Prop}

/-- A program of the first kind ensures among the joined requests what it ensures alone, by
induction over the program.
-/
theorem Program.Ensures.inl {program : Program First FirstReply α}
    {post : α → List (Interaction First FirstReply) → Prop}
    {log : List (Interaction First FirstReply)}
    (ensured : program.Ensures logged first post log)
    : (program.inl : Program (First ⊕ Second) (SumReply FirstReply SecondReply) (α ⊕ β)).Ensures
        logged (SumAllowed first second) (fun _ _ => True)
        (log.map fun interaction => interaction.inl) := by
  induction program generalizing log with
  | done value => trivial
  | ask request next ih =>
      refine ⟨?_, ?_⟩
      · rw [SumAllowed, filterMap_first?_map_inl]
        exact ensured.1
      · rintro reply after rfl
        exact ih reply (ensured.2 reply _ rfl)

/-- A program of the second kind does so as well, by induction over the program. -/
theorem Program.Ensures.inr {program : Program Second SecondReply β}
    {post : β → List (Interaction Second SecondReply) → Prop}
    {log : List (Interaction Second SecondReply)}
    (ensured : program.Ensures logged second post log)
    : (program.inr : Program (First ⊕ Second) (SumReply FirstReply SecondReply) (α ⊕ β)).Ensures
        logged (SumAllowed first second) (fun _ _ => True)
        (log.map fun interaction => interaction.inr) := by
  induction program generalizing log with
  | done value => trivial
  | ask request next ih =>
      refine ⟨?_, ?_⟩
      · rw [SumAllowed, filterMap_second?_map_inr]
        exact ensured.1
      · rintro reply after rfl
        exact ih reply (ensured.2 reply _ rfl)

end AiSdlc.Async
