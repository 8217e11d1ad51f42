import SymbolAtlas.Json.Reader
import SymbolAtlas.Main
import SymbolAtlas.Proofs.Build.Defaults
import SymbolAtlas.Proofs.Build.Production
import SymbolAtlas.Proofs.Config
import SymbolAtlas.Proofs.Library.Formats
import SymbolAtlas.Proofs.Library.Reading
import SymbolAtlas.Proofs.Library.Search
import SymbolAtlas.Proofs.Manifest.Concatenation
import SymbolAtlas.Proofs.Name.Order
import SymbolAtlas.Proofs.Name.Written
import SymbolAtlas.Proofs.Payload.Allowance
import SymbolAtlas.Proofs.Report.Inspection
import SymbolAtlas.Proofs.Symbols.Agreement
import SymbolAtlas.Proofs.Symbols.AllOrNothing
import SymbolAtlas.Proofs.Symbols.Annotations
import SymbolAtlas.Proofs.Symbols.Listing
import SymbolAtlas.Proofs.Symbols.PackageNames
import SymbolAtlas.Proofs.Symbols.SubPackages
import SymbolAtlas.Proofs.Symbols.Views
import SymbolAtlas.Report.Errors
import SymbolAtlas.Report.Symbols
import SymbolAtlas.Symbols.Describe
import SymbolAtlas.Symbols.Session
