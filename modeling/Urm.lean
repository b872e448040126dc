import Urm.Classifier.Pruner
import Urm.Classifier.Scan
import Urm.Classifier.Cmdline
import Urm.Classifier.Environ
import Urm.Classifier.Log
import Urm.Classifier.Links
import Urm.Classifier.Csv
import Urm.Classifier.Proc
import Urm.Classifier.Collect
import Urm.Classifier.Inference
import Urm.Tuner.GetInstance
import Urm.Tuner.DoubleChecked
import Urm.Tuner.Atomic
import Urm.Tuner.Linearizable
