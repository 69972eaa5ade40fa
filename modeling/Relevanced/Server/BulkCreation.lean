import Relevanced.Server.Handlers

/-!
# Creating many centroids

`multiCreateCentroids` asks for every creation before it looks at a result. So a request
that fails, because an id was there before or is given twice, has created the other
centroids all the same.
-/

namespace Relevanced.Server

open Foundation
open Models
open Persistence
open Serialization

set_option autoImplicit false

section NewIds

variable {old : Finset Bytes} {id : Bytes}

end NewIds

section Loop

variable {F : Type} [Zero F] [One F]

end Loop

section Creations

variable {F : Type} [Zero F] [One F] [NatCast F] [Add F] [Mul F] [Div F]

end Creations

end Relevanced.Server
