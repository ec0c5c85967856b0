import LineTint.Main
import LineTint.Terminal.Session
import LineTint.Tool.Folder
import LineTint.Proofs.Lossless
import LineTint.Proofs.Classification
import LineTint.Proofs.Numbers
import LineTint.Proofs.Indentation
import LineTint.Proofs.AddedKeywords
import LineTint.Proofs.OutputLimit
import LineTint.Proofs.Screen
import LineTint.Proofs.Verbatim
import LineTint.Proofs.SettingsFile
import LineTint.Proofs.PairedDelimiters
import LineTint.Proofs.LineByLine
import LineTint.Proofs.Gutter
import LineTint.Proofs.WrittenSettings
import LineTint.Pattern.Escape
import LineTint.Proofs.Escaped
import LineTint.Proofs.Leftmost
import LineTint.Proofs.RuleMatches
import LineTint.Proofs.NumberExtent
import LineTint.Proofs.OrderedTables
import LineTint.Proofs.ByteOrder
import LineTint.Proofs.FirstFault
import LineTint.Proofs.Trimmed
import LineTint.Proofs.ColorGrammar
import LineTint.Proofs.FileNames
import LineTint.Proofs.FileLanguage
import LineTint.Proofs.LastSpelling
